import Mathlib.Data.List.Induction
import ScrapeRelay.Proofs.Ledger.Operations

/-!
# Late marks

The record of a job has room for one instant, that of its last mark. Marks need not come in the
order of their instants, so the last one is not always the latest. A job counts as quiet by the
last one (`stale_by_last_mark`); that is the same as being quiet by all that was heard of it
exactly as long as no earlier mark was of a later instant.
-/

namespace ScrapeRelay

/-- The instant at which an event marks a job, if it does. -/
def LedgerEvent.markOf? (job : String) : LedgerEvent → Option Nat
  | .mark marked now => if marked = job then some now else none
  | _ => none

namespace Ledger

variable {ledger : Ledger} {job : String} {event : LedgerEvent} {record : LedgerRecord}
  {now : Nat} {limit : Duration}

theorem mark_lastSeen (known : (ledger.mark job now).1.records.get? job = some record) :
    record.lastSeen = now := by
  obtain ⟨_, marked⟩ | ⟨before, _, _, marked⟩ := ledger.mark_cases job now
  all_goals
    rw [marked] at known
    obtain rfl := Option.some.inj (SortedMap.get?_insert_self.symm.trans known)
    rfl

theorem LeavesUntouched.of_perform (unmarked : event.markOf? job = none) (ledger : Ledger) :
    LeavesUntouched job ledger (ledger.perform event) := by
  cases event with
  | mark marked now =>
      have apart : job ≠ marked := by
        rintro rfl
        simp [LedgerEvent.markOf?] at unmarked
      exact .of_mark apart ledger now
  | observe observed key value time => exact .of_observe job ledger observed key value time
  | sweep now window => exact .of_sweep job ledger now window
  | sweepIfDue now => exact .of_sweepIfDue job ledger now

/-- After an event, a record has the instant of the mark that the event is, or the one it had. -/
theorem perform_lastSeen (known : (ledger.perform event).records.get? job = some record) :
    event.markOf? job = some record.lastSeen ∨
      (event.markOf? job = none ∧ ∃ before, ledger.records.get? job = some before ∧
        before.lastSeen = record.lastSeen) := by
  cases marked : event.markOf? job with
  | none =>
      obtain ⟨before, held, same, _⟩ := LeavesUntouched.of_perform marked ledger record known
      exact .inr ⟨rfl, before, held, same⟩
  | some now =>
      cases event with
      | mark other later =>
          obtain ⟨rfl, rfl⟩ : other = job ∧ later = now := by
            simpa [LedgerEvent.markOf?] using marked
          exact .inl (by rw [mark_lastSeen known])
      | observe _ _ _ _ => cases marked
      | sweep _ _ => cases marked
      | sweepIfDue _ => cases marked

/-- A ledger that is used, beside the instants of the marks of a job. They are forgotten with
the record of the job. -/
def hear (job : String) (held : Ledger × List Nat) (event : LedgerEvent) : Ledger × List Nat :=
  let after := held.1.perform event
  (after,
    if after.records.contains job then held.2 ++ (event.markOf? job).toList else [])

/-- The instants at which a job was marked since its record was made, in the order in which they
were recorded. -/
def heard (job : String) (ledger : Ledger) (events : List LedgerEvent) : List Nat :=
  (events.foldl (hear job) (ledger, [])).2

theorem foldl_hear (job : String) (ledger : Ledger) (events : List LedgerEvent) :
    events.foldl (hear job) (ledger, []) = (ledger.run events, ledger.heard job events) := by
  refine Prod.ext ?_ rfl
  change (events.foldl (hear job) (ledger, [])).1 = ledger.run events
  induction events using List.reverseRecOn with
  | nil => rfl
  | append_singleton events event ih =>
      rw [run_concat, List.foldl_append, ← ih]
      rfl

theorem heard_concat (job : String) (ledger : Ledger) (events : List LedgerEvent)
    (event : LedgerEvent) :
    ledger.heard job (events ++ [event]) =
      if ((ledger.run events).perform event).records.contains job then
        ledger.heard job events ++ (event.markOf? job).toList
      else [] := by
  rw [heard, List.foldl_append, foldl_hear]
  rfl

/-- A record has the instant of the last mark that was heard. -/
theorem run_lastSeen (window : Duration) (events : List LedgerEvent) (job : String) :
    (((new window).run events).records.get? job).map LedgerRecord.lastSeen =
      ((new window).heard job events).getLast? := by
  induction events using List.reverseRecOn with
  | nil => rfl
  | append_singleton events event ih =>
      rw [run_concat, heard_concat, SortedMap.contains]
      cases known : (((new window).run events).perform event).records.get? job with
      | none => rfl
      | some record =>
          rw [Option.isSome_some, if_pos rfl, Option.map_some]
          obtain marked | ⟨unmarked, before, held, same⟩ := perform_lastSeen known
          · simp [marked]
          · rw [unmarked, Option.toList_none, List.append_nil, ← ih, held, Option.map_some, same]

theorem isStale_iff_of_lastSeen {last : Option Nat}
    (held : (ledger.records.get? job).map LedgerRecord.lastSeen = last) :
    ledger.isStale job now limit = true ↔ ∀ instant ∈ last, limit.nanos ≤ now - instant := by
  subst held
  cases known : ledger.records.get? job with
  | none => simp [isStale_of_unknown known]
  | some record => simp [isStale_of_known known, LedgerRecord.isQuiet]

/-- A job is stale exactly if its last mark lies a window back, in whatever order the instants of
its marks came, and whatever was done for other jobs. That comes to all marks since the record
was made lying a window back, for every instant and every window, exactly if the last of them is
the latest. -/
theorem stale_by_last_mark (window : Duration) (events : List LedgerEvent) (job : String) :
    let ledger := (new window).run events
    let heard := (new window).heard job events
    (∀ now limit, ledger.isStale job now limit = true ↔
      ∀ last ∈ heard.getLast?, limit.nanos ≤ now - last) ∧
    ((∀ now (limit : Duration), 0 < limit.nanos → (ledger.isStale job now limit = true ↔
        ∀ instant ∈ heard, instant + limit.nanos ≤ now)) ↔
      ∀ last ∈ heard.getLast?, ∀ instant ∈ heard, instant ≤ last) := by
  intro ledger heard
  have stale (now : Nat) (limit : Duration) : ledger.isStale job now limit = true ↔
      ∀ last ∈ heard.getLast?, limit.nanos ≤ now - last :=
    isStale_iff_of_lastSeen (run_lastSeen window events job)
  refine ⟨stale, ?_⟩
  constructor
  · -- A job is quiet for a moment right after its last mark, and so after all of them.
    intro agrees last isLast instant member
    have quiet : ledger.isStale job (last + 1) ⟨1⟩ = true := by
      refine (stale _ _).mpr fun other isOther => ?_
      obtain rfl := Option.some.inj (isLast.symm.trans isOther)
      simp
    have bound := (agrees (last + 1) ⟨1⟩ Nat.one_pos).mp quiet instant member
    simpa using bound
  · intro latest now limit positive
    rw [stale]
    constructor
    · intro quiet instant member
      obtain ⟨last, isLast⟩ :=
        Option.isSome_iff_exists.mp (List.getLast?_isSome.mpr (List.ne_nil_of_mem member))
      have back := quiet last isLast
      have order := latest last isLast instant member
      omega
    · intro quiet last isLast
      have back := quiet last (List.mem_of_getLast? isLast)
      omega

/-- A late mark hides the one before it: 70 after the job was heard of, it counts as quiet for
120, and its next mark opens a new generation. -/
theorem forgotten_by_late_mark :
    let events := [.mark "web" 100, .mark "web" 50]
    let ledger := (new ⟨120⟩).run events
    (new ⟨120⟩).heard "web" events = [100, 50] ∧
      ledger.isStale "web" 170 ⟨120⟩ = true ∧
      ¬ (∀ instant ∈ (new ⟨120⟩).heard "web" events, instant + 120 ≤ 170) ∧
      (ledger.mark "web" 170).2 = ⟨2, true⟩ :=
  ⟨by decide, by decide, by decide, by decide⟩

end Ledger

end ScrapeRelay
