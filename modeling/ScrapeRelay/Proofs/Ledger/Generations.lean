import Mathlib.Order.Basic
import ScrapeRelay.Proofs.Ledger.Operations

/-!
# Generations

Generations are handed out in order, one counter for all jobs. So a generation belongs to one
job for good (`Owned`). Which numbers a job gets depends on what else is marked, but no more
than that does: two ledgers that were used alike for one job, and in any way for others, hold
the same of it up to a pairing of their generations that keeps their order (`Mirrors`).

Both relations only grow while a ledger is used, by a generation that is just being opened.
-/

namespace ScrapeRelay

/-- A pairing of generations that keeps their order. No number has two partners in it. -/
def KeepsOrder (paired : Nat → Nat → Prop) : Prop :=
  ∀ first first' second second', paired first first' → paired second second' →
    (first < second ↔ first' < second')

/-- Records of two ledgers that differ in their generations only, which are paired. -/
structure LedgerRecord.Matches (paired : Nat → Nat → Prop) (left right : LedgerRecord) :
    Prop where
  lastSeen : left.lastSeen = right.lastSeen
  generation : paired left.generation right.generation
  series : left.series = right.series

namespace LedgerRecord.Matches

variable {paired wider : Nat → Nat → Prop} {left right : LedgerRecord}

theorem mono (same : left.Matches paired right) (grows : paired ≤ wider) :
    left.Matches wider right :=
  ⟨same.lastSeen, grows _ _ same.generation, same.series⟩

theorem isQuiet (same : left.Matches paired right) (now : Nat) (window : Duration) :
    left.isQuiet now window = right.isQuiet now window := by
  rw [LedgerRecord.isQuiet, LedgerRecord.isQuiet, same.lastSeen]

end LedgerRecord.Matches

namespace Ledger

variable {ledger left right : Ledger} {job key other : String} {now : Nat}

/-- The generations handed out so far belong to one job each, and every record has one of its
own job. -/
structure Owned (owner : Nat → String → Prop) (ledger : Ledger) : Prop where
  unique : ∀ {generation first second}, owner generation first → owner generation second →
    first = second
  issued : ∀ {generation job}, owner generation job → generation < ledger.nextGeneration
  record : ∀ {job record}, ledger.records.get? job = some record → owner record.generation job

namespace Owned

variable {owner : Nat → String → Prop}

theorem new (window : Duration) : (Ledger.new window).Owned fun _ _ => False :=
  ⟨False.elim, False.elim, nofun⟩

/-- A job gets another record of the same generation. -/
theorem keeping {record entry : LedgerRecord} (owned : ledger.Owned owner)
    (known : ledger.records.get? job = some record)
    (same : entry.generation = record.generation) : (ledger.keeping job entry).Owned owner := by
  refine ⟨owned.unique, owned.issued, ?_⟩
  intro name held found
  by_cases own : name = job
  · subst own
    obtain rfl := Option.some.inj (SortedMap.get?_insert_self.symm.trans found)
    rw [same]
    exact owned.record known
  · exact owned.record ((SortedMap.get?_insert_of_ne own).symm.trans found)

/-- The generation of a mark belongs to the job that is marked. -/
theorem mark (owned : ledger.Owned owner) (job : String) (now : Nat) :
    ∃ wider, owner ≤ wider ∧ wider (ledger.mark job now).2.generation job ∧
      (ledger.mark job now).1.Owned wider := by
  obtain ⟨_, marked⟩ | ⟨record, _, known, marked⟩ := ledger.mark_cases job now
  · rw [marked]
    refine ⟨fun generation name => owner generation name ∨
      (generation = ledger.nextGeneration ∧ name = job), fun _ _ => Or.inl, .inr ⟨rfl, rfl⟩,
      ?_, ?_, ?_⟩
    · rintro generation first second (old | ⟨rfl, rfl⟩) (old' | ⟨next, rfl⟩)
      · exact owned.unique old old'
      · have bound := owned.issued old
        omega
      · have bound := owned.issued old'
        omega
      · rfl
    · rintro generation name (old | ⟨rfl, rfl⟩)
      · exact Nat.lt_succ_of_lt (owned.issued old)
      · exact Nat.lt_succ_self _
    · intro name record known
      by_cases own : name = job
      · subst own
        obtain rfl := Option.some.inj (SortedMap.get?_insert_self.symm.trans known)
        exact .inr ⟨rfl, rfl⟩
      · exact .inl (owned.record ((SortedMap.get?_insert_of_ne own).symm.trans known))
  · rw [marked]
    exact ⟨owner, le_rfl, owned.record known, owned.keeping known rfl⟩

theorem observe (owned : ledger.Owned owner) (job key : String) (value : Binary64)
    (time : Int64) : (ledger.observe job key value time).1.Owned owner := by
  obtain same | ⟨record, known, observed⟩ := ledger.observe_cases job key value time
  · rw [same]
    exact owned
  · rw [observed]
    exact owned.keeping known rfl

theorem sweep (owned : ledger.Owned owner) (now : Nat) (window : Duration) :
    (ledger.sweep now window).1.Owned owner := by
  refine ⟨owned.unique, owned.issued, ?_⟩
  intro job record found
  rw [sweep_get?] at found
  exact owned.record (Option.eq_some_of_filter_eq_some found)

theorem sweepIfDue (owned : ledger.Owned owner) (now : Nat) :
    (ledger.sweepIfDue now).1.Owned owner := by
  rcases ledger.sweepIfDue_cases now with swept | same
  · rw [swept]
    exact owned.sweep now _
  · rw [same]
    exact owned

end Owned

/-- A ledger was used, but not for one job, and not swept. -/
structure Spares (key : String) (before after : Ledger) : Prop where
  window : after.window = before.window
  lastSweep : after.lastSweep = before.lastSweep
  nextGeneration : before.nextGeneration ≤ after.nextGeneration
  record : after.records.get? key = before.records.get? key

namespace Spares

theorem refl (key : String) (ledger : Ledger) : Spares key ledger ledger :=
  ⟨rfl, rfl, Nat.le_refl _, rfl⟩

theorem trans {first middle last : Ledger} (former : Spares key first middle)
    (latter : Spares key middle last) : Spares key first last :=
  ⟨latter.window.trans former.window, latter.lastSweep.trans former.lastSweep,
    Nat.le_trans former.nextGeneration latter.nextGeneration, latter.record.trans former.record⟩

theorem of_mark (apart : key ≠ job) (ledger : Ledger) (now : Nat) :
    Spares key ledger (ledger.mark job now).1 := by
  obtain ⟨window, lastSweep, records⟩ := ledger.mark_frame job now
  refine ⟨window, lastSweep, ?_, records key apart⟩
  obtain ⟨_, marked⟩ | ⟨record, _, _, marked⟩ := ledger.mark_cases job now
  · rw [marked]
    exact Nat.le_succ _
  · rw [marked]
    exact Nat.le_refl ledger.nextGeneration

theorem of_observe (apart : key ≠ job) (ledger : Ledger) (series : String) (value : Binary64)
    (time : Int64) : Spares key ledger (ledger.observe job series value time).1 := by
  obtain ⟨window, lastSweep, next, records⟩ := ledger.observe_frame job series value time
  exact ⟨window, lastSweep, Nat.le_of_eq next.symm, records key apart⟩

end Spares

/-- Two ledgers hold the same of one job, up to the numbers of its generations: these are
paired in the order in which both ledgers handed them out. -/
structure Mirrors (key : String) (paired : Nat → Nat → Prop) (left right : Ledger) : Prop where
  window : left.window = right.window
  lastSweep : left.lastSweep = right.lastSweep
  ordered : KeepsOrder paired
  issued : ∀ {generation generation'}, paired generation generation' →
    generation < left.nextGeneration ∧ generation' < right.nextGeneration
  record : Option.Rel (LedgerRecord.Matches paired) (left.records.get? key)
    (right.records.get? key)

namespace Mirrors

variable {paired : Nat → Nat → Prop}

theorem new (key : String) (window : Duration) :
    Mirrors key (fun _ _ => False) (Ledger.new window) (Ledger.new window) :=
  ⟨rfl, rfl, nofun, nofun, .none⟩

theorem spared {left' right' : Ledger} (mirrors : Mirrors key paired left right)
    (first : Spares key left left') (second : Spares key right right') :
    Mirrors key paired left' right' := by
  refine ⟨?_, ?_, mirrors.ordered, ?_, ?_⟩
  · rw [first.window, second.window, mirrors.window]
  · rw [first.lastSweep, second.lastSweep, mirrors.lastSweep]
  · intro generation generation' pair
    obtain ⟨bound, bound'⟩ := mirrors.issued pair
    exact ⟨Nat.lt_of_lt_of_le bound first.nextGeneration,
      Nat.lt_of_lt_of_le bound' second.nextGeneration⟩
  · rw [first.record, second.record]
    exact mirrors.record

theorem cases (mirrors : Mirrors key paired left right) :
    (left.records.get? key = none ∧ right.records.get? key = none) ∨
      ∃ record other, left.records.get? key = some record ∧
        right.records.get? key = some other ∧ record.Matches paired other := by
  have record := mirrors.record
  revert record
  generalize left.records.get? key = held, right.records.get? key = held'
  rintro (_ | _)
  · exact .inr ⟨_, _, rfl, rfl, ‹_›⟩
  · exact .inl ⟨rfl, rfl⟩

theorem isStale (mirrors : Mirrors key paired left right) (now : Nat) (window : Duration) :
    left.isStale key now window = right.isStale key now window := by
  rcases mirrors.cases with ⟨known, known'⟩ | ⟨record, other, known, known', same⟩
  · rw [isStale_of_unknown known, isStale_of_unknown known']
  · rw [isStale_of_known known, isStale_of_known known', same.isQuiet]

/-- Both ledgers get another record for the job. -/
theorem keeping (mirrors : Mirrors key paired left right) {record other : LedgerRecord}
    (same : record.Matches paired other) :
    Mirrors key paired (left.keeping key record) (right.keeping key other) := by
  refine ⟨mirrors.window, mirrors.lastSweep, mirrors.ordered, mirrors.issued, ?_⟩
  simpa [Ledger.keeping] using same

/-- Both ledgers count on, and the next generations of both are a pair. -/
theorem opened (mirrors : Mirrors key paired left right) :
    Mirrors key
      (fun first second => paired first second ∨
        (first = left.nextGeneration ∧ second = right.nextGeneration))
      { left with nextGeneration := left.nextGeneration + 1 }
      { right with nextGeneration := right.nextGeneration + 1 } := by
  refine ⟨mirrors.window, mirrors.lastSweep, ?_, ?_, ?_⟩
  · rintro first first' second second' (old | ⟨rfl, rfl⟩) (old' | ⟨rfl, rfl⟩)
    · exact mirrors.ordered _ _ _ _ old old'
    · have := mirrors.issued old
      omega
    · have := mirrors.issued old'
      omega
    · omega
  · rintro generation generation' (old | ⟨rfl, rfl⟩)
    · have := mirrors.issued old
      dsimp only
      omega
    · dsimp only
      omega
  · rcases mirrors.cases with ⟨known, known'⟩ | ⟨record, other, known, known', same⟩
    · simp [known, known']
    · simpa [known, known'] using same.mono fun _ _ => Or.inl

theorem mark (mirrors : Mirrors key paired left right) (now : Nat) :
    ∃ wider, paired ≤ wider ∧
      wider (left.mark key now).2.generation (right.mark key now).2.generation ∧
      Mirrors key wider (left.mark key now).1 (right.mark key now).1 := by
  have stale := mirrors.isStale now left.window
  cases quiet : left.isStale key now left.window with
  | true =>
      rw [quiet, mirrors.window] at stale
      rw [mark_of_stale quiet, mark_of_stale stale.symm]
      exact ⟨_, fun _ _ => Or.inl, .inr ⟨rfl, rfl⟩,
        mirrors.opened.keeping ⟨rfl, .inr ⟨rfl, rfl⟩, rfl⟩⟩
  | false =>
      rw [quiet, mirrors.window] at stale
      rcases mirrors.cases with ⟨known, _⟩ | ⟨record, other, known, known', same⟩
      · simp [isStale_of_unknown known] at quiet
      · rw [isStale_of_known known] at quiet
        rw [isStale_of_known known'] at stale
        rw [mark_of_active known quiet, mark_of_active known' stale.symm]
        exact ⟨paired, le_rfl, same.generation,
          mirrors.keeping ⟨rfl, same.generation, same.series⟩⟩

theorem observe (mirrors : Mirrors key paired left right) (series : String) (value : Binary64)
    (time : Int64) :
    (left.observe key series value time).2 = (right.observe key series value time).2 ∧
      Mirrors key paired (left.observe key series value time).1
        (right.observe key series value time).1 := by
  rcases mirrors.cases with ⟨known, known'⟩ | ⟨record, other, known, known', same⟩
  · rw [observe_of_unknown known, observe_of_unknown known']
    exact ⟨rfl, mirrors⟩
  · cases gap : value.isNaN with
    | true =>
        rw [observe_of_nan known gap, observe_of_nan known' gap, same.series]
        exact ⟨rfl, mirrors⟩
    | false =>
        rw [observe_of_known known gap, observe_of_known known' gap, same.series]
        exact ⟨rfl, mirrors.keeping ⟨same.lastSeen, same.generation, rfl⟩⟩

theorem sweep (mirrors : Mirrors key paired left right) (now : Nat) (window : Duration) :
    Mirrors key paired (left.sweep now window).1 (right.sweep now window).1 := by
  refine ⟨mirrors.window, rfl, mirrors.ordered, mirrors.issued, ?_⟩
  rw [sweep_get?, sweep_get?]
  rcases mirrors.cases with ⟨known, known'⟩ | ⟨record, other, known, known', same⟩
  · rw [known, known']
    exact .none
  · rw [known, known']
    cases drop : other.isQuiet now window <;>
      simp [Option.filter, same.isQuiet now window, drop, same]

theorem sweepIfDue (mirrors : Mirrors key paired left right) (now : Nat) :
    Mirrors key paired (left.sweepIfDue now).1 (right.sweepIfDue now).1 := by
  have due : left.sweepIsDue now = right.sweepIsDue now := by
    rw [sweepIsDue, sweepIsDue, mirrors.lastSweep, mirrors.window]
  unfold Ledger.sweepIfDue
  rw [due, mirrors.window]
  cases right.sweepIsDue now with
  | true => exact mirrors.sweep now right.window
  | false => exact mirrors

end Mirrors

end Ledger

end ScrapeRelay
