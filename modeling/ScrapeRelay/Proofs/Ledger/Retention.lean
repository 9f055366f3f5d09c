import Mathlib.Data.List.Induction
import ScrapeRelay.Proofs.Ledger.Periods
import ScrapeRelay.Proofs.Ledger.Recency

/-!
# How long records are kept

Records are dropped by sweeps, and a sweep that is asked for is performed only if half a window
has passed since the last one. As long as instants do not go back, that bounds the life of a
record from both sides (`sweeps_are_bounded`): no job is dropped within a window of a mark, and
once a sweep was asked for, no job is left whose last mark is a window and a half back.
-/

namespace ScrapeRelay

namespace LedgerEvent

/-- The instant of an event. An observation has none. -/
def instant? : LedgerEvent → Option Nat
  | .mark _ now => some now
  | .observe _ _ _ _ => none
  | .sweep now _ => some now
  | .sweepIfDue now => some now

/-- Whether an event leaves it to the ledger when to sweep. -/
def isRegular : LedgerEvent → Bool
  | .sweep _ _ => false
  | _ => true

/-- The instants of events never go back. -/
def InOrder (events : List LedgerEvent) : Prop := (events.filterMap instant?).Pairwise (· ≤ ·)

theorem InOrder.of_concat {events : List LedgerEvent} {event : LedgerEvent}
    (inOrder : InOrder (events ++ [event])) :
    InOrder events ∧ ∀ now, event.instant? = some now →
      ∀ instant ∈ events.filterMap instant?, instant ≤ now := by
  rw [InOrder, List.filterMap_append] at inOrder
  obtain ⟨before, _, across⟩ := List.pairwise_append.mp inOrder
  refine ⟨before, fun now timed instant member => across instant member now ?_⟩
  simp [timed]

end LedgerEvent

open LedgerEvent (InOrder)

namespace Ledger

variable {ledger after : Ledger} {job key : String} {record : LedgerRecord} {window : Duration}
  {events : List LedgerEvent} {event : LedgerEvent} {swept : List Nat} {clock later now : Nat}

/-- A sweep is due unless the last one is less than half a window back. -/
theorem sweepIsDue_iff : ledger.sweepIsDue now = true ↔
    ∀ last, ledger.lastSweep = some last → ledger.window.half.nanos ≤ now - last := by
  cases held : ledger.lastSweep <;> simp [sweepIsDue, held]

theorem sweepIfDue_of_due (due : ledger.sweepIsDue now = true) :
    ledger.sweepIfDue now = ledger.sweep now ledger.window :=
  if_pos due

theorem sweepIfDue_of_not_due (early : ledger.sweepIsDue now = false) :
    ledger.sweepIfDue now = (ledger, 0) :=
  if_neg (by simp [early])

theorem sweep_known_iff : (ledger.sweep now window).1.records.get? job = some record ↔
    ledger.records.get? job = some record ∧ record.isQuiet now window = false := by
  rw [sweep_get?, Option.filter_eq_some_iff, Bool.not_eq_true']

/-- The answer is the number of jobs that are dropped. -/
theorem sweepIfDue_count (ledger : Ledger) (now : Nat) :
    (ledger.sweepIfDue now).2 = (ledger.records.keys.filter
      (fun job => job ∉ (ledger.sweepIfDue now).1.records.keys)).length := by
  cases due : ledger.sweepIsDue now with
  | true =>
      rw [sweepIfDue_of_due due]
      exact SortedMap.size_sub_size_filter _ _
  | false =>
      rw [sweepIfDue_of_not_due due, eq_comm, List.length_eq_zero_iff, List.filter_eq_nil_iff]
      simp

def swept? (ledger : Ledger) : LedgerEvent → Option Nat
  | .sweep now _ => some now
  | .sweepIfDue now => if ledger.sweepIsDue now then some now else none
  | _ => none

/-- The instants of the sweeps that are performed in a run, oldest first. -/
def sweeps : Ledger → List LedgerEvent → List Nat
  | _, [] => []
  | ledger, event :: rest => (ledger.swept? event).toList ++ sweeps (ledger.perform event) rest

theorem sweeps_concat (ledger : Ledger) (events : List LedgerEvent) (event : LedgerEvent) :
    ledger.sweeps (events ++ [event]) =
      ledger.sweeps events ++ ((ledger.run events).swept? event).toList := by
  induction events generalizing ledger with
  | nil => simp [sweeps, run]
  | cons first rest ih =>
      simp only [List.cons_append, sweeps, ih, List.append_assoc]
      rfl

theorem mark_known_cases (known : (ledger.mark job now).1.records.get? key = some record) :
    (key = job ∧ record.lastSeen = now) ∨ (key ≠ job ∧ ledger.records.get? key = some record) := by
  by_cases own : key = job
  · subst own
    exact .inl ⟨rfl, mark_lastSeen known⟩
  · exact .inr ⟨own, ((ledger.mark_frame job now).2.2 key own).symm.trans known⟩

theorem mark_unknown (unknown : (ledger.mark job now).1.records.get? key = none) :
    key ≠ job ∧ ledger.records.get? key = none := by
  have apart : key ≠ job := by
    rintro rfl
    obtain ⟨_, marked⟩ | ⟨record, _, _, marked⟩ := ledger.mark_cases key now
    all_goals
      rw [marked] at unknown
      cases SortedMap.get?_insert_self.symm.trans unknown
  exact ⟨apart, ((ledger.mark_frame job now).2.2 key apart).symm.trans unknown⟩

/-- What holds of a ledger at an instant that no event before was later than. A record has the
latest instant of its job, and a job without one was not marked for a window. Sweeps are half a
window apart, and a record that was there at the last one was not stale then. -/
structure Retains (events : List LedgerEvent) (swept : List Nat) (clock : Nat)
    (ledger : Ledger) : Prop where
  past : ∀ {job instant}, .mark job instant ∈ events → instant ≤ clock
  marked : ∀ {job record}, ledger.records.get? job = some record →
    .mark job record.lastSeen ∈ events
  latest : ∀ {job record}, ledger.records.get? job = some record →
    ∀ instant, .mark job instant ∈ events → instant ≤ record.lastSeen
  dropped : ∀ {job}, ledger.records.get? job = none →
    ∀ instant, .mark job instant ∈ events → instant + ledger.window.nanos ≤ clock
  lastSwept : ∀ sweep ∈ swept, ∃ last, ledger.lastSweep = some last ∧ sweep ≤ last
  sweptBefore : ∀ {last}, ledger.lastSweep = some last → last ≤ clock
  apart : swept.Pairwise (fun earlier later => earlier + ledger.window.half.nanos ≤ later)
  spared : ∀ {job record last}, ledger.records.get? job = some record →
    ledger.lastSweep = some last →
      last < record.lastSeen + ledger.window.nanos ∨ last ≤ record.lastSeen

namespace Retains

theorem new (window : Duration) (clock : Nat) : (Ledger.new window).Retains [] [] clock where
  past := nofun
  marked := nofun
  latest := nofun
  dropped := nofun
  lastSwept := nofun
  sweptBefore := nofun
  apart := .nil
  spared := nofun

theorem wait (retains : ledger.Retains events swept clock) (order : clock ≤ later) :
    ledger.Retains events swept later :=
  { retains with
    past := fun member => (retains.past member).trans order
    dropped := fun unknown instant member =>
      (retains.dropped unknown instant member).trans order
    sweptBefore := fun isLast => (retains.sweptBefore isLast).trans order }

/-- Nothing that matters is done: the event is no mark, and no record is dropped. -/
theorem frame (retains : ledger.Retains events swept clock)
    (unmarked : ∀ job instant, event ≠ .mark job instant)
    (window : after.window = ledger.window) (lastSweep : after.lastSweep = ledger.lastSweep)
    (untouched : ∀ job, LeavesUntouched job ledger after)
    (kept : ∀ job, after.records.get? job = none → ledger.records.get? job = none) :
    after.Retains (events ++ [event]) swept clock := by
  have old {job : String} {instant : Nat} (member : .mark job instant ∈ events ++ [event]) :
      .mark job instant ∈ events :=
    (List.mem_append.mp member).resolve_right
      (fun new => unmarked job instant (List.mem_singleton.mp new).symm)
  refine ⟨fun member => retains.past (old member), ?_, ?_, ?_, ?_, ?_, ?_, ?_⟩
  · intro job record known
    obtain ⟨before, held, same, _⟩ := untouched job record known
    exact List.mem_append_left _ (same ▸ retains.marked held)
  · intro job record known instant member
    obtain ⟨before, held, same, _⟩ := untouched job record known
    exact same ▸ retains.latest held instant (old member)
  · intro job unknown instant member
    rw [window]
    exact retains.dropped (kept job unknown) instant (old member)
  · rw [lastSweep]
    exact retains.lastSwept
  · rw [lastSweep]
    exact retains.sweptBefore
  · rw [window]
    exact retains.apart
  · intro job record last known isLast
    obtain ⟨before, held, same, _⟩ := untouched job record known
    rw [window, ← same]
    exact retains.spared held (lastSweep ▸ isLast)

theorem mark (retains : ledger.Retains events swept clock) (order : clock ≤ now) (job : String) :
    (ledger.mark job now).1.Retains (events ++ [.mark job now]) swept now := by
  obtain ⟨window, lastSweep, _⟩ := ledger.mark_frame job now
  have past {other : String} {instant : Nat}
      (member : .mark other instant ∈ events ++ [.mark job now]) : instant ≤ now := by
    obtain old | new := List.mem_append.mp member
    · exact (retains.past old).trans order
    · cases List.mem_singleton.mp new
      exact le_rfl
  have old {other : String} {instant : Nat} (apart : other ≠ job)
      (member : .mark other instant ∈ events ++ [.mark job now]) : .mark other instant ∈ events :=
    (List.mem_append.mp member).resolve_right fun new => by
      cases List.mem_singleton.mp new
      exact apart rfl
  refine ⟨past, ?_, ?_, ?_, ?_, ?_, ?_, ?_⟩
  · intro other record known
    obtain ⟨rfl, rfl⟩ | ⟨_, held⟩ := mark_known_cases known
    · exact List.mem_append_right _ (List.mem_singleton.mpr rfl)
    · exact List.mem_append_left _ (retains.marked held)
  · intro other record known instant member
    obtain ⟨rfl, rfl⟩ | ⟨apart, held⟩ := mark_known_cases known
    · exact past member
    · exact retains.latest held instant (old apart member)
  · intro other unknown instant member
    obtain ⟨apart, missing⟩ := mark_unknown unknown
    rw [window]
    exact (retains.dropped missing instant (old apart member)).trans order
  · rw [lastSweep]
    exact retains.lastSwept
  · rw [lastSweep]
    exact fun isLast => (retains.sweptBefore isLast).trans order
  · rw [window]
    exact retains.apart
  · intro other record last known isLast
    rw [lastSweep] at isLast
    obtain ⟨rfl, rfl⟩ | ⟨_, held⟩ := mark_known_cases known
    · exact .inr ((retains.sweptBefore isLast).trans order)
    · rw [window]
      exact retains.spared held isLast

theorem observe (retains : ledger.Retains events swept clock) (job key : String)
    (value : Binary64) (time : Int64) :
    (ledger.observe job key value time).1.Retains (events ++ [.observe job key value time])
      swept clock := by
  obtain ⟨window, lastSweep, _, records⟩ := ledger.observe_frame job key value time
  refine retains.frame nofun window lastSweep
    (fun other => .of_observe other ledger job key value time) ?_
  intro other unknown
  by_cases own : other = job
  · subst own
    obtain same | ⟨record, _, observed⟩ := ledger.observe_cases other key value time
    · rwa [same] at unknown
    · rw [observed, keeping, SortedMap.get?_insert_self] at unknown
      cases unknown
  · rwa [records other own] at unknown

/-- A sweep that is due drops what is stale. -/
theorem sweep (retains : ledger.Retains events swept clock) (order : clock ≤ now)
    (due : ledger.sweepIsDue now = true) :
    (ledger.sweep now ledger.window).1.Retains (events ++ [.sweepIfDue now]) (swept ++ [now])
      now := by
  have old {job : String} {instant : Nat}
      (member : .mark job instant ∈ events ++ [.sweepIfDue now]) : .mark job instant ∈ events :=
    (List.mem_append.mp member).resolve_right (by simp)
  refine ⟨fun member => (retains.past (old member)).trans order, ?_, ?_, ?_, ?_, ?_, ?_, ?_⟩
  · intro job record known
    exact List.mem_append_left _ (retains.marked (sweep_known_iff.mp known).1)
  · intro job record known instant member
    exact retains.latest (sweep_known_iff.mp known).1 instant (old member)
  · intro job unknown instant member
    change instant + ledger.window.nanos ≤ now
    cases held : ledger.records.get? job with
    | none => exact (retains.dropped held instant (old member)).trans order
    | some record =>
        have stale : record.isQuiet now ledger.window = true := by
          by_contra active
          have known := sweep_known_iff.mpr ⟨held, eq_false_of_ne_true active⟩
          cases known.symm.trans unknown
        have bound := retains.latest held instant (old member)
        have seen := retains.past (retains.marked held)
        simp only [LedgerRecord.isQuiet, decide_eq_true_eq] at stale
        omega
  · intro earlier member
    refine ⟨now, rfl, ?_⟩
    obtain before | new := List.mem_append.mp member
    · obtain ⟨last, isLast, bound⟩ := retains.lastSwept earlier before
      exact bound.trans ((retains.sweptBefore isLast).trans order)
    · exact (List.mem_singleton.mp new).le
  · intro last isLast
    exact (Option.some.inj isLast).ge
  · refine List.pairwise_append.mpr ⟨retains.apart, List.pairwise_singleton _ _, ?_⟩
    intro earlier before latest new
    obtain rfl := List.mem_singleton.mp new
    obtain ⟨last, isLast, bound⟩ := retains.lastSwept earlier before
    have passed := sweepIsDue_iff.mp due last isLast
    have seen := retains.sweptBefore isLast
    change earlier + ledger.window.half.nanos ≤ latest
    omega
  · intro job record last known isLast
    obtain rfl := Option.some.inj isLast
    have active := (sweep_known_iff.mp known).2
    simp only [LedgerRecord.isQuiet, decide_eq_false_iff_not] at active
    change now < record.lastSeen + ledger.window.nanos ∨ _
    omega

theorem sweepIfDue (retains : ledger.Retains events swept clock) (order : clock ≤ now) :
    (ledger.sweepIfDue now).1.Retains (events ++ [.sweepIfDue now])
      (swept ++ (ledger.swept? (.sweepIfDue now)).toList) now := by
  cases due : ledger.sweepIsDue now with
  | true =>
      rw [sweepIfDue_of_due due, swept?, if_pos due]
      exact retains.sweep order due
  | false =>
      rw [sweepIfDue_of_not_due due, swept?, if_neg (by simp [due]), Option.toList_none,
        List.append_nil]
      exact (retains.wait order).frame nofun rfl rfl (fun job => .refl job ledger) fun _ => id

end Retains

/-- A run in order retains what it should, at any instant after it. -/
theorem run_retains (window : Duration) (regular : ∀ event ∈ events, event.isRegular = true)
    (inOrder : InOrder events)
    (past : ∀ instant ∈ events.filterMap LedgerEvent.instant?, instant ≤ clock) :
    ((new window).run events).Retains events ((new window).sweeps events) clock := by
  induction events using List.reverseRecOn generalizing clock with
  | nil => exact .new window clock
  | append_singleton events event ih =>
      obtain ⟨before, across⟩ := inOrder.of_concat
      have regularBefore : ∀ event ∈ events, event.isRegular = true :=
        fun earlier member => regular earlier (List.mem_append_left _ member)
      have pastBefore : ∀ instant ∈ events.filterMap LedgerEvent.instant?, instant ≤ clock := by
        intro instant member
        exact past instant (by simp [List.filterMap_append, member])
      have timely : ∀ now, event.instant? = some now → now ≤ clock := by
        intro now timed
        exact past now (by simp [timed])
      rw [run_concat, sweeps_concat]
      cases event with
      | mark job now =>
          simp only [swept?, Option.toList_none, List.append_nil]
          exact ((ih regularBefore before (across now rfl)).mark le_rfl job).wait (timely now rfl)
      | observe job key value time =>
          simp only [swept?, Option.toList_none, List.append_nil]
          exact (ih regularBefore before pastBefore).observe job key value time
      | sweep now limit => cases regular _ List.mem_concat_self
      | sweepIfDue now =>
          exact ((ih regularBefore before (across now rfl)).sweepIfDue le_rfl).wait
            (timely now rfl)

namespace Retains

/-- A job that was marked within the window is there, and stays. -/
theorem keeps (retains : ledger.Retains events swept now) {instant : Nat}
    (marked : .mark job instant ∈ events) (recent : now < instant + ledger.window.nanos) :
    job ∈ (ledger.sweepIfDue now).1.records.keys := by
  cases held : ledger.records.get? job with
  | none =>
      have lapsed := retains.dropped held instant marked
      omega
  | some record =>
      rw [SortedMap.mem_keys_iff, Option.isSome_iff_exists]
      refine ⟨record, ?_⟩
      cases due : ledger.sweepIsDue now with
      | false => rwa [sweepIfDue_of_not_due due]
      | true =>
          have bound := retains.latest held instant marked
          have seen := retains.past marked
          rw [sweepIfDue_of_due due, sweep_known_iff]
          refine ⟨held, ?_⟩
          simp only [LedgerRecord.isQuiet, decide_eq_false_iff_not]
          omega

/-- A job that is left was marked less than a window and a half before. -/
theorem lapses (retains : ledger.Retains events swept now)
    (left : job ∈ (ledger.sweepIfDue now).1.records.keys) :
    ∃ instant, .mark job instant ∈ events ∧
      now < instant + ledger.window.nanos + ledger.window.half.nanos := by
  obtain ⟨record, known⟩ := Option.isSome_iff_exists.mp (SortedMap.mem_keys_iff.mp left)
  cases due : ledger.sweepIsDue now with
  | true =>
      rw [sweepIfDue_of_due due] at known
      obtain ⟨held, active⟩ := sweep_known_iff.mp known
      simp only [LedgerRecord.isQuiet, decide_eq_false_iff_not] at active
      exact ⟨record.lastSeen, retains.marked held, by omega⟩
  | false =>
      rw [sweepIfDue_of_not_due due] at known
      refine ⟨record.lastSeen, retains.marked known, ?_⟩
      -- The last sweep is less than half a window back, and the job was not stale then.
      have early : ¬ ledger.sweepIsDue now = true := by simp [due]
      rw [sweepIsDue_iff] at early
      push Not at early
      obtain ⟨last, isLast, near⟩ := early
      have spared := retains.spared known isLast
      omega

/-- The jobs that are dropped are those whose marks all lie a window back, if a sweep is due. -/
theorem drops_iff (retains : ledger.Retains events swept now) :
    (job ∈ ledger.records.keys ∧ job ∉ (ledger.sweepIfDue now).1.records.keys) ↔
      ledger.sweepIsDue now = true ∧ job ∈ ledger.records.keys ∧
        ∀ instant, .mark job instant ∈ events → instant + ledger.window.nanos ≤ now := by
  constructor
  · rintro ⟨tracked, gone⟩
    refine ⟨?_, tracked, fun instant marked => ?_⟩
    · by_contra early
      rw [sweepIfDue_of_not_due (eq_false_of_ne_true early)] at gone
      exact gone tracked
    · by_contra recent
      exact gone (retains.keeps marked (by omega))
  · rintro ⟨due, tracked, idle⟩
    refine ⟨tracked, fun left => ?_⟩
    rw [sweepIfDue_of_due due] at left
    obtain ⟨record, known⟩ := Option.isSome_iff_exists.mp (SortedMap.mem_keys_iff.mp left)
    obtain ⟨held, active⟩ := sweep_known_iff.mp known
    have lapsed := idle record.lastSeen (retains.marked held)
    simp only [LedgerRecord.isQuiet, decide_eq_false_iff_not] at active
    omega

end Retains

/-- Sweeps that are performed only when they are due, at instants that do not go back, are half a
window apart. None drops a job that was marked less than a window before, and each leaves only
jobs whose last mark is less than a window and a half back, also if it is not performed. The
answer is the number of jobs that are gone: those whose marks all lie a window back, if the sweep
was due, and else none. -/
theorem sweeps_are_bounded {window : Duration} {events : List LedgerEvent} {now : Nat}
    (regular : ∀ event ∈ events, event.isRegular = true)
    (inOrder : InOrder (events ++ [.sweepIfDue now])) :
    let ledger := (new window).run events
    let swept := ledger.sweepIfDue now
    let tracked := ledger.records.keys
    let left := swept.1.records.keys
    (∀ job instant, .mark job instant ∈ events → now < instant + window.nanos → job ∈ left) ∧
      ((new window).sweeps (events ++ [.sweepIfDue now])).Pairwise
        (fun earlier later => earlier + window.half.nanos ≤ later) ∧
      (∀ job ∈ left, ∃ instant, .mark job instant ∈ events ∧
        now < instant + window.nanos + window.half.nanos) ∧
      (∀ job, (job ∈ tracked ∧ job ∉ left) ↔ ledger.sweepIsDue now = true ∧ job ∈ tracked ∧
        ∀ instant, .mark job instant ∈ events → instant + window.nanos ≤ now) ∧
      swept.2 = (tracked.filter (fun job => job ∉ left)).length := by
  intro ledger swept tracked left
  obtain ⟨before, across⟩ := inOrder.of_concat
  have retains : ledger.Retains events ((new window).sweeps events) now :=
    run_retains window regular before (across now rfl)
  have same : ledger.window = window := run_window (new window) events
  refine ⟨?_, ?_, ?_, ?_, sweepIfDue_count ledger now⟩
  · intro job instant marked recent
    exact retains.keeps marked (same ▸ recent)
  · have kept : (ledger.sweepIfDue now).1.window = window :=
      (perform_window ledger (.sweepIfDue now)).trans same
    have apart := (retains.sweepIfDue le_rfl).apart
    rw [kept] at apart
    rw [sweeps_concat]
    exact apart
  · intro job member
    exact same ▸ retains.lapses member
  · intro job
    exact same ▸ retains.drops_iff

/-- The sweep at 30 comes too early and is not performed; one at 130 is. -/
def skippedSweep : List LedgerEvent :=
  [.mark "old" 0, .sweepIfDue 0, .sweepIfDue 30, .mark "fresh" 100]

theorem sweeps_are_bounded_skipped :
    let swept := ((new ⟨120⟩).run skippedSweep).sweepIfDue 130
    ((∀ event ∈ skippedSweep, event.isRegular = true) ∧
      InOrder (skippedSweep ++ [.sweepIfDue 130])) ∧
    (new ⟨120⟩).sweeps (skippedSweep ++ [.sweepIfDue 130]) = [0, 130] ∧
    swept.2 = 1 ∧ swept.1.records.keys = ["fresh"] ∧
    (∀ job instant, .mark job instant ∈ skippedSweep → 130 < instant + 120 →
      job ∈ swept.1.records.keys) ∧
    ∀ job ∈ swept.1.records.keys, ∃ instant, .mark job instant ∈ skippedSweep ∧
      130 < instant + 120 + 60 := by
  have regular : ∀ event ∈ skippedSweep, event.isRegular = true := by decide
  have inOrder : InOrder (skippedSweep ++ [.sweepIfDue 130]) := by
    unfold InOrder
    decide
  have bounds := @sweeps_are_bounded ⟨120⟩ skippedSweep 130 regular inOrder
  exact ⟨⟨regular, inOrder⟩, by decide, by decide, by decide, bounds.1, bounds.2.2.1⟩

end Ledger

end ScrapeRelay
