import ScrapeRelay.Ledger
import ScrapeRelay.Proofs.SortedMap

/-!
# The operations of the ledger

What each operation makes of the record of a job, and what it leaves alone. A run is any
sequence of operations, and its log tells which of them opened a generation.
-/

namespace ScrapeRelay

/-- A series after one more value: a new series, or one that was reset, starts with it. -/
def SeriesStart.after (held : Option SeriesStart) (value : Binary64) (time : Int64) :
    SeriesStart :=
  match held with
  | none => ⟨time, value⟩
  | some entry =>
      if Ledger.isReset entry.last value then ⟨time, value⟩ else ⟨entry.start, value⟩

theorem SeriesStart.after_last (held : Option SeriesStart) (value : Binary64) (time : Int64) :
    (SeriesStart.after held value time).last = value := by
  unfold SeriesStart.after
  cases held with
  | none => rfl
  | some entry =>
      dsimp only
      split <;> rfl

namespace LedgerRecord

variable {record : LedgerRecord} {window : Duration} {now later : Nat}

/-- A record without a newer mark stays quiet. -/
theorem isQuiet_later (order : now ≤ later) (quiet : record.isQuiet now window = true) :
    record.isQuiet later window = true := by
  simp only [isQuiet, decide_eq_true_eq] at quiet ⊢
  omega

end LedgerRecord

namespace Ledger

variable {ledger : Ledger} {job other key : String} {now later : Nat} {window : Duration}
  {record : LedgerRecord} {value : Binary64} {time : Int64}

theorem isStale_of_unknown (unknown : ledger.records.get? job = none) :
    ledger.isStale job now window = true := by
  simp only [isStale, unknown]

theorem isStale_of_known (known : ledger.records.get? job = some record) :
    ledger.isStale job now window = record.isQuiet now window := by
  simp only [isStale, known]

theorem isStale_later (order : now ≤ later) (stale : ledger.isStale job now window = true) :
    ledger.isStale job later window = true := by
  cases known : ledger.records.get? job with
  | none => exact isStale_of_unknown known
  | some record =>
      rw [isStale_of_known known] at stale ⊢
      exact record.isQuiet_later order stale

/-- The ledger in which a job has just entered a new generation. -/
def renewed (ledger : Ledger) (job : String) (now : Nat) : Ledger :=
  { ledger with
    records := ledger.records.insert job ⟨now, ledger.nextGeneration, .empty⟩
    nextGeneration := ledger.nextGeneration + 1 }

/-- The ledger with another record for a job. -/
def keeping (ledger : Ledger) (job : String) (record : LedgerRecord) : Ledger :=
  { ledger with records := ledger.records.insert job record }

theorem mark_of_stale (stale : ledger.isStale job now ledger.window = true) :
    ledger.mark job now = (ledger.renewed job now, ⟨ledger.nextGeneration, true⟩) := by
  cases known : ledger.records.get? job with
  | none => simp only [mark, known, renewed]
  | some record =>
      rw [isStale_of_known known] at stale
      simp only [mark, known, stale, if_true, renewed]

theorem mark_of_active (known : ledger.records.get? job = some record)
    (active : record.isQuiet now ledger.window = false) :
    ledger.mark job now =
      (ledger.keeping job { record with lastSeen := now }, ⟨record.generation, false⟩) := by
  simp only [mark, known, active, keeping, Bool.false_eq_true, if_false]

/-- A mark renews a stale job, and else notes that the job was seen. -/
theorem mark_cases (ledger : Ledger) (job : String) (now : Nat) :
    (ledger.isStale job now ledger.window = true ∧
        ledger.mark job now = (ledger.renewed job now, ⟨ledger.nextGeneration, true⟩)) ∨
      ∃ record, ledger.isStale job now ledger.window = false ∧
        ledger.records.get? job = some record ∧
        ledger.mark job now =
          (ledger.keeping job { record with lastSeen := now }, ⟨record.generation, false⟩) := by
  cases stale : ledger.isStale job now ledger.window with
  | true => exact .inl ⟨rfl, mark_of_stale stale⟩
  | false =>
      cases known : ledger.records.get? job with
      | none => simp [isStale_of_unknown known] at stale
      | some record =>
          rw [isStale_of_known known] at stale
          exact .inr ⟨record, rfl, rfl, mark_of_active known stale⟩

theorem mark_frame (ledger : Ledger) (job : String) (now : Nat) :
    (ledger.mark job now).1.window = ledger.window ∧
      (ledger.mark job now).1.lastSweep = ledger.lastSweep ∧
      ∀ other, other ≠ job →
        (ledger.mark job now).1.records.get? other = ledger.records.get? other := by
  obtain ⟨_, marked⟩ | ⟨record, _, _, marked⟩ := ledger.mark_cases job now
  · rw [marked]
    exact ⟨rfl, rfl, fun other different => SortedMap.get?_insert_of_ne different⟩
  · rw [marked]
    exact ⟨rfl, rfl, fun other different => SortedMap.get?_insert_of_ne different⟩

theorem observe_of_unknown (unknown : ledger.records.get? job = none) :
    ledger.observe job key value time = (ledger, time) := by
  simp only [observe, unknown]

theorem observe_of_nan (known : ledger.records.get? job = some record)
    (gap : value.isNaN = true) :
    ledger.observe job key value time =
      (ledger, ((record.series.get? key).map SeriesStart.start).getD time) := by
  simp only [observe, known, gap, if_true]
  cases record.series.get? key <;> rfl

theorem observe_of_known (known : ledger.records.get? job = some record)
    (valued : value.isNaN = false) :
    ledger.observe job key value time =
      (ledger.keeping job { record with
        series := record.series.insert key (.after (record.series.get? key) value time) },
        (SeriesStart.after (record.series.get? key) value time).start) := by
  simp only [observe, known, valued, Bool.false_eq_true, if_false]
  cases held : record.series.get? key with
  | none => rfl
  | some entry =>
      simp only [SeriesStart.after]
      split <;> rfl

/-- An observation changes nothing or gives a known job another start of the series. -/
theorem observe_cases (ledger : Ledger) (job key : String) (value : Binary64) (time : Int64) :
    (ledger.observe job key value time).1 = ledger ∨
      ∃ record, ledger.records.get? job = some record ∧
        (ledger.observe job key value time).1 = ledger.keeping job { record with
          series := record.series.insert key (.after (record.series.get? key) value time) } := by
  cases known : ledger.records.get? job with
  | none => exact .inl (by rw [observe_of_unknown known])
  | some record =>
      cases gap : value.isNaN with
      | true => exact .inl (by rw [observe_of_nan known gap])
      | false => exact .inr ⟨record, rfl, by rw [observe_of_known known gap]⟩

theorem observe_frame (ledger : Ledger) (job key : String) (value : Binary64) (time : Int64) :
    (ledger.observe job key value time).1.window = ledger.window ∧
      (ledger.observe job key value time).1.lastSweep = ledger.lastSweep ∧
      (ledger.observe job key value time).1.nextGeneration = ledger.nextGeneration ∧
      ∀ other, other ≠ job →
        (ledger.observe job key value time).1.records.get? other = ledger.records.get? other := by
  obtain same | ⟨record, _, observed⟩ := ledger.observe_cases job key value time
  · rw [same]
    exact ⟨rfl, rfl, rfl, fun other _ => rfl⟩
  · rw [observed]
    exact ⟨rfl, rfl, rfl, fun other different => SortedMap.get?_insert_of_ne different⟩

theorem sweep_get? (ledger : Ledger) (now : Nat) (window : Duration) (job : String) :
    (ledger.sweep now window).1.records.get? job =
      (ledger.records.get? job).filter (fun record => !record.isQuiet now window) :=
  SortedMap.get?_filter _ _ _

end Ledger

inductive LedgerEvent where
  | mark (job : String) (now : Nat)
  | observe (job key : String) (value : Binary64) (time : Int64)
  | sweep (now : Nat) (window : Duration)
  | sweepIfDue (now : Nat)

/-- An event of a run, and whether it opened a generation. -/
structure LoggedEvent where
  event : LedgerEvent
  opened : Bool

namespace Ledger

variable {ledger : Ledger}

def perform (ledger : Ledger) : LedgerEvent → Ledger
  | .mark job now => (ledger.mark job now).1
  | .observe job key value time => (ledger.observe job key value time).1
  | .sweep now window => (ledger.sweep now window).1
  | .sweepIfDue now => (ledger.sweepIfDue now).1

def run (ledger : Ledger) (events : List LedgerEvent) : Ledger := events.foldl perform ledger

def opens (ledger : Ledger) : LedgerEvent → Bool
  | .mark job now => (ledger.mark job now).2.opened
  | _ => false

def log : Ledger → List LedgerEvent → List LoggedEvent
  | _, [] => []
  | ledger, event :: rest => ⟨event, ledger.opens event⟩ :: log (ledger.perform event) rest

theorem run_concat (events : List LedgerEvent) (event : LedgerEvent) :
    ledger.run (events ++ [event]) = (ledger.run events).perform event := by
  simp only [run, List.foldl_append, List.foldl_cons, List.foldl_nil]

theorem log_concat (events : List LedgerEvent) (event : LedgerEvent) :
    ledger.log (events ++ [event]) =
      ledger.log events ++ [⟨event, (ledger.run events).opens event⟩] := by
  induction events generalizing ledger with
  | nil => rfl
  | cons first rest ih =>
      simp only [List.cons_append, log, ih]
      rfl

/-- Sweeping if that is due is sweeping with the window of the ledger, or nothing. -/
theorem sweepIfDue_cases (ledger : Ledger) (now : Nat) :
    (ledger.sweepIfDue now).1 = (ledger.sweep now ledger.window).1 ∨
      (ledger.sweepIfDue now).1 = ledger := by
  unfold sweepIfDue
  split
  · exact .inl rfl
  · exact .inr rfl

variable {middle after : Ledger} {key job : String}

/-- The record of a key was neither opened nor touched: if there is one, it was there before,
last heard of at the same instant and in the same generation. -/
def LeavesUntouched (key : String) (before after : Ledger) : Prop :=
  ∀ record, after.records.get? key = some record → ∃ old, before.records.get? key = some old ∧
    old.lastSeen = record.lastSeen ∧ old.generation = record.generation

namespace LeavesUntouched

theorem refl (key : String) (ledger : Ledger) : LeavesUntouched key ledger ledger :=
  fun record found => ⟨record, found, rfl, rfl⟩

theorem trans (first : LeavesUntouched key ledger middle)
    (second : LeavesUntouched key middle after) : LeavesUntouched key ledger after := by
  intro record found
  obtain ⟨between, there, seen, generation⟩ := second record found
  obtain ⟨old, held, seenBefore, generationBefore⟩ := first between there
  exact ⟨old, held, seenBefore.trans seen, generationBefore.trans generation⟩

theorem of_get?_eq (same : after.records.get? key = ledger.records.get? key) :
    LeavesUntouched key ledger after :=
  fun record found => ⟨record, same ▸ found, rfl, rfl⟩

theorem of_mark (apart : key ≠ job) (ledger : Ledger) (now : Nat) :
    LeavesUntouched key ledger (ledger.mark job now).1 :=
  of_get?_eq ((ledger.mark_frame job now).2.2 key apart)

/-- An observation is no activity. -/
theorem of_observe (key : String) (ledger : Ledger) (job series : String) (value : Binary64)
    (time : Int64) : LeavesUntouched key ledger (ledger.observe job series value time).1 := by
  by_cases own : key = job
  · subst own
    obtain same | ⟨record, known, observed⟩ := ledger.observe_cases key series value time
    · rw [same]
      exact refl key ledger
    · rw [observed]
      intro changed found
      rw [keeping, SortedMap.get?_insert_self] at found
      obtain rfl := Option.some.inj found
      exact ⟨record, known, rfl, rfl⟩
  · exact of_get?_eq ((ledger.observe_frame job series value time).2.2.2 key own)

theorem of_sweep (key : String) (ledger : Ledger) (now : Nat) (window : Duration) :
    LeavesUntouched key ledger (ledger.sweep now window).1 := by
  intro record found
  rw [sweep_get?] at found
  exact ⟨record, (Option.filter_eq_some_iff.mp found).1, rfl, rfl⟩

theorem of_sweepIfDue (key : String) (ledger : Ledger) (now : Nat) :
    LeavesUntouched key ledger (ledger.sweepIfDue now).1 := by
  rcases ledger.sweepIfDue_cases now with swept | left
  · rw [swept]
    exact of_sweep key ledger now ledger.window
  · rw [left]
    exact refl key ledger

end LeavesUntouched

end Ledger

end ScrapeRelay
