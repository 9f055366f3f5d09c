import Mathlib.Data.List.DropRight
import ScrapeRelay.Proofs.Ledger.Operations

/-!
# Start times and the history of a series

The ledger keeps a start and a last value for each series. Both are determined by the
values that were observed since the job's generation was opened (`tracked`), and the start
is the time of the latest of them with which the series began or fell
(`start_follows_observations`). NaN and what is observed of other series do not count.
-/

namespace ScrapeRelay

structure Observation where
  value : Binary64
  time : Int64
deriving DecidableEq

namespace LedgerEvent

/-- What an event observes of a series, unless it is a gap. -/
def observation? (job key : String) : LedgerEvent → Option Observation
  | .observe observed series value time =>
      if observed = job && series = key && !value.isNaN then some ⟨value, time⟩ else none
  | _ => none

/-- Whether an event is a value of a series, a mark of its job, or a sweep. -/
def concerns (job key : String) : LedgerEvent → Bool
  | .mark marked _ => marked = job
  | .observe observed series value _ => observed = job && series = key && !value.isNaN
  | .sweep _ _ => true
  | .sweepIfDue _ => true

end LedgerEvent

def LoggedEvent.opensGeneration (job : String) (entry : LoggedEvent) : Bool :=
  match entry.event with
  | .mark marked _ => marked = job && entry.opened
  | _ => false

/-- What was observed of a series since its job opened a generation, oldest first. -/
def observations (job key : String) (log : List LoggedEvent) : List Observation :=
  (log.rtakeWhile (fun entry => !entry.opensGeneration job)).filterMap
    (fun entry => entry.event.observation? job key)

/-- Whether a series starts with one of its observations: with the first, and with a finite
value below a finite one before it. -/
def StartsAt (seen : List Observation) (place : Nat) : Prop :=
  place = 0 ∨ ∃ before previous current, place = before + 1 ∧ seen[before]? = some previous ∧
    seen[place]? = some current ∧ previous.value.isFinite = true ∧
    current.value.isFinite = true ∧ current.value.less previous.value = true

/-- The time of the latest observation with which a series starts. -/
def IsStartTime (seen : List Observation) (time : Int64) : Prop :=
  ∃ place latest, seen[place]? = some latest ∧ latest.time = time ∧ StartsAt seen place ∧
    ∀ later, place < later → later < seen.length → ¬ StartsAt seen later

/-- Start and last value of a series after some observations. -/
def tracked (seen : List Observation) : Option SeriesStart :=
  seen.foldl (fun held observation => some (.after held observation.value observation.time)) none

theorem tracked_concat (seen : List Observation) (observation : Observation) :
    tracked (seen ++ [observation]) =
      some (.after (tracked seen) observation.value observation.time) := by
  simp [tracked]

theorem tracked_eq_none_iff (seen : List Observation) : tracked seen = none ↔ seen = [] := by
  cases seen using List.reverseRecOn with
  | nil => simp [tracked]
  | append_singleton seen observation => simp [tracked_concat]

theorem tracked_last {seen : List Observation} {entry : SeriesStart}
    (track : tracked seen = some entry) :
    ∃ latest, seen[seen.length - 1]? = some latest ∧ latest.value = entry.last := by
  cases seen using List.reverseRecOn with
  | nil => simp [tracked] at track
  | append_singleton seen observation =>
      rw [tracked_concat] at track
      obtain rfl := Option.some.inj track
      exact ⟨observation, by simp, (SeriesStart.after_last _ _ _).symm⟩

/-- Whether a series starts at a place does not depend on what is observed later. -/
theorem startsAt_append_iff {seen rest : List Observation} {place : Nat}
    (inside : place < seen.length) : StartsAt (seen ++ rest) place ↔ StartsAt seen place := by
  unfold StartsAt
  apply or_congr_right
  refine exists_congr fun before => exists_congr fun previous => exists_congr fun current =>
    and_congr_right fun next => ?_
  have within : before < seen.length := by omega
  rw [List.getElem?_append_left within, List.getElem?_append_left inside]

/-- A value after others starts the series exactly if it resets the last of them. -/
theorem startsAt_concat_iff {seen : List Observation} {entry : SeriesStart}
    (track : tracked seen = some entry) (observation : Observation) :
    StartsAt (seen ++ [observation]) seen.length ↔
      Ledger.isReset entry.last observation.value = true := by
  obtain ⟨latest, found, same⟩ := tracked_last track
  have positive : seen.length ≠ 0 := by
    intro empty
    rw [List.length_eq_zero_iff.mp empty] at track
    simp [tracked] at track
  have within : seen.length - 1 < seen.length := by omega
  simp only [Ledger.isReset, ← same, Bool.and_eq_true]
  constructor
  · rintro (empty | ⟨before, previous, current, next, earlier, reached, facts⟩)
    · exact absurd empty positive
    · have place : before = seen.length - 1 := by omega
      rw [place, List.getElem?_append_left within, found] at earlier
      obtain rfl := Option.some.inj earlier
      rw [List.getElem?_concat_length] at reached
      obtain rfl := Option.some.inj reached
      exact ⟨⟨facts.2.1, facts.1⟩, facts.2.2⟩
  · rintro ⟨⟨finite, finiteBefore⟩, falls⟩
    refine .inr ⟨seen.length - 1, latest, observation, by omega, ?_,
      List.getElem?_concat_length, finiteBefore, finite, falls⟩
    rw [List.getElem?_append_left within, found]

theorem tracked_start {seen : List Observation} {entry : SeriesStart}
    (track : tracked seen = some entry) : IsStartTime seen entry.start := by
  induction seen using List.reverseRecOn generalizing entry with
  | nil => simp [tracked] at track
  | append_singleton seen observation ih =>
      rw [tracked_concat] at track
      obtain rfl := Option.some.inj track
      have reached : (seen ++ [observation])[seen.length]? = some observation :=
        List.getElem?_concat_length
      cases held : tracked seen with
      | none =>
          obtain rfl := (tracked_eq_none_iff seen).mp held
          refine ⟨0, observation, reached, rfl, .inl rfl, ?_⟩
          intro later after inside
          simp only [List.nil_append, List.length_singleton] at inside
          omega
      | some entry =>
          have starts := startsAt_concat_iff held observation
          by_cases reset : Ledger.isReset entry.last observation.value = true
          · refine ⟨seen.length, observation, reached, ?_, starts.mpr reset, ?_⟩
            · simp [SeriesStart.after, reset]
            · intro later after inside
              simp only [List.length_append, List.length_singleton] at inside
              omega
          · obtain ⟨place, latest, found, time, started, unbroken⟩ := ih held
            have within : place < seen.length := (List.getElem?_eq_some_iff.mp found).1
            refine ⟨place, latest, ?_, ?_, (startsAt_append_iff within).mpr started, ?_⟩
            · rw [List.getElem?_append_left within, found]
            · simpa [SeriesStart.after, reset] using time
            · intro later after inside
              rcases Nat.lt_or_ge later seen.length with earlier | last
              · rw [startsAt_append_iff earlier]
                exact unbroken later after earlier
              · simp only [List.length_append, List.length_singleton] at inside
                have place : later = seen.length := by omega
                rw [place, starts]
                exact reset

/-- An infinite value takes the place of the last one, so a fall below what was before it is
not seen. -/
example : (tracked [⟨.one, 1⟩, ⟨.infinity, 2⟩, ⟨.zero, 3⟩]).map SeriesStart.start = some 1 := by
  decide

theorem observations_concat (job key : String) (log : List LoggedEvent) (entry : LoggedEvent) :
    observations job key (log ++ [entry]) =
      if entry.opensGeneration job then []
      else observations job key log ++ (entry.event.observation? job key).toList := by
  unfold observations
  rw [List.rtakeWhile_concat]
  cases entry.opensGeneration job with
  | true => simp
  | false => cases found : entry.event.observation? job key <;> simp [found]

namespace Ledger

variable {ledger : Ledger} {job key : String} {seen : List Observation}

/-- The record of a job, if there is one, keeps of a series what its observations come to. -/
def Tracks (ledger : Ledger) (job key : String) (seen : List Observation) : Prop :=
  ∀ record, ledger.records.get? job = some record → record.series.get? key = tracked seen

namespace Tracks

theorem congr {after : Ledger} (tracks : ledger.Tracks job key seen)
    (same : after.records.get? job = ledger.records.get? job) : after.Tracks job key seen := by
  intro record known
  exact tracks record (same.symm.trans known)

theorem mark (tracks : ledger.Tracks job key seen) (marked : String) (now : Nat) :
    (ledger.mark marked now).1.Tracks job key
      (if marked = job && (ledger.mark marked now).2.opened then [] else seen) := by
  by_cases other : marked = job
  · subst other
    obtain ⟨_, renewed⟩ | ⟨record, _, known, noted⟩ := ledger.mark_cases marked now
    · rw [renewed]
      intro record known
      simp only [Ledger.renewed, SortedMap.get?_insert_self, Option.some.injEq] at known
      subst known
      simp [tracked]
    · rw [noted]
      intro kept found
      simp only [keeping, SortedMap.get?_insert_self, Option.some.injEq] at found
      subst found
      simpa using tracks record known
  · have same := (ledger.mark_frame marked now).2.2 job (Ne.symm other)
    simpa [other] using tracks.congr same

theorem observe (tracks : ledger.Tracks job key seen) (observed series : String)
    (value : Binary64) (time : Int64) :
    (ledger.observe observed series value time).1.Tracks job key
      (seen ++
        (LedgerEvent.observation? job key (.observe observed series value time)).toList) := by
  by_cases other : observed = job
  · subst other
    cases known : ledger.records.get? observed with
    | none =>
        rw [observe_of_unknown known]
        intro record found
        rw [known] at found
        cases found
    | some record =>
        cases gap : value.isNaN with
        | true =>
            rw [observe_of_nan known gap]
            simpa [LedgerEvent.observation?, gap] using tracks
        | false =>
            rw [observe_of_known known gap]
            intro kept found
            simp only [keeping, SortedMap.get?_insert_self, Option.some.injEq] at found
            subst found
            by_cases same : series = key
            · subst same
              simp [LedgerEvent.observation?, gap, tracked_concat, tracks record known]
            · simpa [LedgerEvent.observation?, same, SortedMap.get?_insert_of_ne (Ne.symm same)]
                using tracks record known
  · have same := (ledger.observe_frame observed series value time).2.2.2 job (Ne.symm other)
    simpa [LedgerEvent.observation?, other] using tracks.congr same

theorem sweep (tracks : ledger.Tracks job key seen) (now : Nat) (window : Duration) :
    (ledger.sweep now window).1.Tracks job key seen := by
  intro record found
  rw [sweep_get?] at found
  exact tracks record (Option.eq_some_of_filter_eq_some found)

end Tracks

theorem run_tracks (window : Duration) (events : List LedgerEvent) (job key : String) :
    ((new window).run events).Tracks job key (observations job key ((new window).log events)) := by
  induction events using List.reverseRecOn with
  | nil => intro record found; cases found
  | append_singleton events event ih =>
      rw [run_concat, log_concat, observations_concat]
      cases event with
      | mark marked now =>
          have kept := ih.mark marked now
          simpa [LoggedEvent.opensGeneration, LedgerEvent.observation?, perform, opens] using kept
      | observe observed series value time => exact ih.observe observed series value time
      | sweep now limit =>
          have kept := ih.sweep now limit
          simpa [LoggedEvent.opensGeneration, LedgerEvent.observation?, perform] using kept
      | sweepIfDue now =>
          simp only [LoggedEvent.opensGeneration, LedgerEvent.observation?]
          rcases sweepIfDue_cases ((new window).run events) now with swept | same
          · simpa [perform, swept] using ih.sweep now _
          · simpa [perform, same] using ih

/-- Two ledgers that hold the same of one series, and for the same time. -/
structure SameSeries (job key : String) (left right : Ledger) : Prop where
  window : left.window = right.window
  lastSweep : left.lastSweep = right.lastSweep
  record : (left.records.get? job).map (fun record => (record.lastSeen, record.series.get? key)) =
    (right.records.get? job).map (fun record => (record.lastSeen, record.series.get? key))

namespace SameSeries

variable {left middle right : Ledger}

theorem refl (ledger : Ledger) : SameSeries job key ledger ledger := ⟨rfl, rfl, rfl⟩

theorem symm (same : SameSeries job key left right) : SameSeries job key right left :=
  ⟨same.window.symm, same.lastSweep.symm, same.record.symm⟩

theorem trans (first : SameSeries job key left middle) (second : SameSeries job key middle right) :
    SameSeries job key left right :=
  ⟨first.window.trans second.window, first.lastSweep.trans second.lastSweep,
    first.record.trans second.record⟩

theorem cases (same : SameSeries job key left right) :
    (left.records.get? job = none ∧ right.records.get? job = none) ∨
      ∃ record other, left.records.get? job = some record ∧
        right.records.get? job = some other ∧ record.lastSeen = other.lastSeen ∧
        record.series.get? key = other.series.get? key := by
  have record := same.record
  cases known : left.records.get? job with
  | none =>
      rw [known, Option.map_none] at record
      exact .inl ⟨rfl, Option.map_eq_none_iff.mp record.symm⟩
  | some entry =>
      rw [known, Option.map_some] at record
      obtain ⟨other, found, equal⟩ := Option.map_eq_some_iff.mp record.symm
      obtain ⟨seen, held⟩ := Prod.mk.inj equal
      exact .inr ⟨entry, other, rfl, found, seen.symm, held.symm⟩

theorem isStale (same : SameSeries job key left right) (now : Nat) (window : Duration) :
    left.isStale job now window = right.isStale job now window := by
  rcases same.cases with ⟨known, known'⟩ | ⟨record, other, known, known', seen, _⟩
  · rw [isStale_of_unknown known, isStale_of_unknown known']
  · rw [isStale_of_known known, isStale_of_known known', LedgerRecord.isQuiet,
      LedgerRecord.isQuiet, seen]

theorem mark (same : SameSeries job key left right) (now : Nat) :
    SameSeries job key (left.mark job now).1 (right.mark job now).1 := by
  have stale := same.isStale now left.window
  refine ⟨?_, ?_, ?_⟩
  · rw [(left.mark_frame job now).1, (right.mark_frame job now).1, same.window]
  · rw [(left.mark_frame job now).2.1, (right.mark_frame job now).2.1, same.lastSweep]
  · cases quiet : left.isStale job now left.window with
    | true =>
        rw [quiet, same.window] at stale
        rw [mark_of_stale quiet, mark_of_stale stale.symm]
        simp [renewed]
    | false =>
        rcases same.cases with ⟨known, _⟩ | ⟨record, other, known, known', _, held⟩
        · simp [isStale_of_unknown known] at quiet
        · rw [quiet, same.window, isStale_of_known known'] at stale
          rw [isStale_of_known known] at quiet
          rw [mark_of_active known quiet, mark_of_active known' stale.symm]
          simp [keeping, held]

/-- What is told of a series depends on what is held of it only. -/
theorem answer (same : SameSeries job key left right) (value : Binary64) (time : Int64) :
    (left.observe job key value time).2 = (right.observe job key value time).2 := by
  rcases same.cases with ⟨known, known'⟩ | ⟨record, other, known, known', _, held⟩
  · rw [observe_of_unknown known, observe_of_unknown known']
  · cases gap : value.isNaN with
    | true => rw [observe_of_nan known gap, observe_of_nan known' gap, held]
    | false => rw [observe_of_known known gap, observe_of_known known' gap, held]

theorem observe (same : SameSeries job key left right) {value : Binary64}
    (valued : value.isNaN = false) (time : Int64) :
    SameSeries job key (left.observe job key value time).1
      (right.observe job key value time).1 := by
  obtain ⟨window, lastSweep, _⟩ := left.observe_frame job key value time
  obtain ⟨window', lastSweep', _⟩ := right.observe_frame job key value time
  refine ⟨?_, ?_, ?_⟩
  · rw [window, window', same.window]
  · rw [lastSweep, lastSweep', same.lastSweep]
  · rcases same.cases with ⟨known, known'⟩ | ⟨record, other, known, known', seen, held⟩
    · rw [observe_of_unknown known, observe_of_unknown known']
      exact same.record
    · rw [observe_of_known known valued, observe_of_known known' valued]
      simp [keeping, held, seen]

theorem sweep (same : SameSeries job key left right) (now : Nat) (window : Duration) :
    SameSeries job key (left.sweep now window).1 (right.sweep now window).1 := by
  refine ⟨same.window, rfl, ?_⟩
  rw [sweep_get?, sweep_get?]
  rcases same.cases with ⟨known, known'⟩ | ⟨record, other, known, known', seen, held⟩
  · rw [known, known']
  · have quiet : record.isQuiet now window = other.isQuiet now window := by
      rw [LedgerRecord.isQuiet, LedgerRecord.isQuiet, seen]
    rw [known, known']
    cases drop : other.isQuiet now window <;> simp [Option.filter, quiet, drop, seen, held]

theorem sweepIfDue (same : SameSeries job key left right) (now : Nat) :
    SameSeries job key (left.sweepIfDue now).1 (right.sweepIfDue now).1 := by
  have due : left.sweepIsDue now = right.sweepIsDue now := by
    rw [sweepIsDue, sweepIsDue, same.lastSweep, same.window]
  unfold Ledger.sweepIfDue
  rw [due, same.window]
  cases right.sweepIsDue now with
  | true => exact same.sweep now right.window
  | false => exact same

theorem perform (same : SameSeries job key left right) {event : LedgerEvent}
    (concerned : event.concerns job key = true) :
    SameSeries job key (left.perform event) (right.perform event) := by
  cases event with
  | mark marked now =>
      obtain rfl : marked = job := by simpa [LedgerEvent.concerns] using concerned
      exact same.mark now
  | observe observed series value time =>
      simp only [LedgerEvent.concerns, Bool.and_eq_true, decide_eq_true_eq,
        Bool.not_eq_true'] at concerned
      obtain ⟨⟨rfl, rfl⟩, valued⟩ := concerned
      exact same.observe valued time
  | sweep now window => exact same.sweep now window
  | sweepIfDue now => exact same.sweepIfDue now

end SameSeries

/-- Marks of other jobs, values of other series and gaps leave a series as it is held. -/
theorem perform_unconcerned {event : LedgerEvent} (apart : event.concerns job key = false)
    (ledger : Ledger) : SameSeries job key (ledger.perform event) ledger := by
  cases event with
  | mark marked now =>
      have different : job ≠ marked := by
        rintro rfl
        simp [LedgerEvent.concerns] at apart
      obtain ⟨window, lastSweep, records⟩ := ledger.mark_frame marked now
      exact ⟨window, lastSweep, by rw [perform, records job different]⟩
  | observe observed series value time =>
      obtain ⟨window, lastSweep, _, records⟩ := ledger.observe_frame observed series value time
      refine ⟨window, lastSweep, ?_⟩
      by_cases other : job = observed
      · subst other
        cases known : ledger.records.get? job with
        | none => rw [perform, observe_of_unknown known, known]
        | some record =>
            cases gap : value.isNaN with
            | true => rw [perform, observe_of_nan known gap, known]
            | false =>
                have different : key ≠ series := by
                  rintro rfl
                  simp [LedgerEvent.concerns, gap] at apart
                rw [perform, observe_of_known known gap]
                simp [keeping, SortedMap.get?_insert_of_ne different]
      · rw [perform, records job other]
  | sweep now window => simp [LedgerEvent.concerns] at apart
  | sweepIfDue now => simp [LedgerEvent.concerns] at apart

theorem run_concerned (job key : String) (ledger : Ledger) (events : List LedgerEvent) :
    SameSeries job key (ledger.run events)
      (ledger.run (events.filter (fun event => event.concerns job key))) := by
  induction events using List.reverseRecOn with
  | nil => exact .refl ledger
  | append_singleton events event ih =>
      rw [run_concat, List.filter_append]
      cases concerned : event.concerns job key with
      | true =>
          rw [List.filter_cons_of_pos concerned, List.filter_nil, run_concat]
          exact ih.perform concerned
      | false =>
          rw [List.filter_cons_of_neg (by simp [concerned]), List.filter_nil, List.append_nil]
          exact (perform_unconcerned concerned _).trans ih

theorem observe_start {record : LedgerRecord} (tracks : ledger.Tracks job key seen)
    (known : ledger.records.get? job = some record) (value : Binary64) (time : Int64) :
    (ledger.observe job key value time).2 =
      ((tracked (seen ++
        (LedgerEvent.observation? job key (.observe job key value time)).toList)).map
          SeriesStart.start).getD time := by
  cases gap : value.isNaN with
  | true =>
      rw [observe_of_nan known gap, tracks record known]
      simp [LedgerEvent.observation?, gap]
  | false =>
      rw [observe_of_known known gap, tracks record known]
      simp [LedgerEvent.observation?, gap, tracked_concat]

/-- What is told of a series, in any run of the ledger: its own time without a record of the
job, and without one nothing is kept; else the time of the latest observation, since the
job's generation was opened, with which the series started, the present one included. A run
with the same marks, sweeps and observations of the series tells the same, whatever else is
marked or observed in it. -/
theorem start_follows_observations (window : Duration) (events : List LedgerEvent)
    (job key : String) (value : Binary64) (time : Int64) :
    let ledger := (new window).run events
    let answer := ledger.observe job key value time
    let seen := observations job key
      ((new window).log (events ++ [.observe job key value time]))
    (ledger.records.get? job = none → answer = (ledger, time)) ∧
      ((ledger.records.get? job).isSome = true →
        (seen = [] → answer.2 = time) ∧ (seen ≠ [] → IsStartTime seen answer.2)) ∧
      ∀ others : List LedgerEvent,
        others.filter (fun event => event.concerns job key) =
          events.filter (fun event => event.concerns job key) →
        (((new window).run others).observe job key value time).2 = answer.2 := by
  intro ledger answer seen
  have tracks : ledger.Tracks job key (observations job key ((new window).log events)) :=
    run_tracks window events job key
  refine ⟨observe_of_unknown, ?_, ?_⟩
  · intro known
    obtain ⟨record, known⟩ := Option.isSome_iff_exists.mp known
    have split : seen = observations job key ((new window).log events) ++
        (LedgerEvent.observation? job key (.observe job key value time)).toList := by
      simp only [seen, log_concat, observations_concat, LoggedEvent.opensGeneration,
        Bool.false_eq_true, if_false]
    have told := observe_start tracks known value time
    rw [← split] at told
    constructor
    · intro empty
      rw [empty] at told
      exact told
    · intro present
      cases track : tracked seen with
      | none => exact absurd ((tracked_eq_none_iff seen).mp track) present
      | some entry =>
          rw [track] at told
          rw [show answer.2 = entry.start from told]
          exact tracked_start track
  · intro others same
    have first := run_concerned job key (new window) others
    have second := run_concerned job key (new window) events
    rw [same] at first
    exact (first.trans second.symm).answer value time

end Ledger

end ScrapeRelay
