import Mathlib.Data.List.Forall2
import ScrapeRelay.Proofs.Ledger.Generations
import ScrapeRelay.Proofs.Ledger.Periods

/-!
# One job among others

All jobs of a ledger share the counter of generations and the sweeps. Neither lets one job be
seen by another: whatever is marked and observed for others, in any order and at any instants,
the ledger answers what it would without that, in generations that come in the same order
(`answers_without_others`).
-/

namespace ScrapeRelay

/-- What a ledger is asked: to do something, or whether a job is stale. -/
inductive LedgerCall where
  | perform (event : LedgerEvent)
  | isStale (job : String) (now : Nat) (window : Duration)

inductive LedgerAnswer where
  | mark (mark : Mark)
  | start (time : Int64)
  | isStale (stale : Bool)

/-- Answers that differ in their generations only, which are paired. -/
inductive LedgerAnswer.Matches (paired : Nat → Nat → Prop) : LedgerAnswer → LedgerAnswer → Prop
  | mark {generation generation' : Nat} (pair : paired generation generation') (opened : Bool) :
      Matches paired (.mark ⟨generation, opened⟩) (.mark ⟨generation', opened⟩)
  | start (time : Int64) : Matches paired (.start time) (.start time)
  | isStale (stale : Bool) : Matches paired (.isStale stale) (.isStale stale)

theorem LedgerAnswer.Matches.mono {paired wider : Nat → Nat → Prop} {left right : LedgerAnswer}
    (same : left.Matches paired right) (grows : paired ≤ wider) : left.Matches wider right := by
  cases same with
  | mark pair opened => exact .mark (grows _ _ pair) opened
  | start time => exact .start time
  | isStale stale => exact .isStale stale

/-- Whether a call marks or observes another job than the given one. -/
def LedgerCall.isForeign (job : String) : LedgerCall → Bool
  | .perform (.mark marked _) => marked ≠ job
  | .perform (.observe observed _ _ _) => observed ≠ job
  | _ => false

namespace Ledger

variable {job : String} {call : LedgerCall} {paired : Nat → Nat → Prop} {left right : Ledger}

def afterCall (ledger : Ledger) : LedgerCall → Ledger
  | .perform event => ledger.perform event
  | .isStale _ _ _ => ledger

/-- The answer to a call, if the call is about the given job. -/
def answer? (job : String) (ledger : Ledger) : LedgerCall → Option LedgerAnswer
  | .perform (.mark marked now) =>
      if marked = job then some (.mark (ledger.mark marked now).2) else none
  | .perform (.observe observed key value time) =>
      if observed = job then some (.start (ledger.observe observed key value time).2) else none
  | .perform _ => none
  | .isStale asked now window =>
      if asked = job then some (.isStale (ledger.isStale asked now window)) else none

/-- The answers to all calls about a job, in order. -/
def answers (job : String) : Ledger → List LedgerCall → List LedgerAnswer
  | _, [] => []
  | ledger, call :: rest =>
      (ledger.answer? job call).toList ++ answers job (ledger.afterCall call) rest

theorem answer?_of_foreign (foreign : call.isForeign job = true) (ledger : Ledger) :
    ledger.answer? job call = none := by
  cases call with
  | isStale _ _ _ => cases foreign
  | perform event =>
      cases event with
      | mark marked now => simpa [answer?, LedgerCall.isForeign] using foreign
      | observe observed key value time => simpa [answer?, LedgerCall.isForeign] using foreign
      | sweep _ _ => cases foreign
      | sweepIfDue _ => cases foreign

theorem Spares.of_foreign (foreign : call.isForeign job = true) (ledger : Ledger) :
    Spares job ledger (ledger.afterCall call) := by
  cases call with
  | isStale _ _ _ => cases foreign
  | perform event =>
      cases event with
      | mark marked now =>
          have apart : marked ≠ job := by simpa [LedgerCall.isForeign] using foreign
          exact .of_mark apart.symm ledger now
      | observe observed key value time =>
          have apart : observed ≠ job := by simpa [LedgerCall.isForeign] using foreign
          exact .of_observe apart.symm ledger key value time
      | sweep _ _ => cases foreign
      | sweepIfDue _ => cases foreign

namespace Mirrors

theorem mark_opened (mirrors : Mirrors job paired left right) (now : Nat) :
    (left.mark job now).2.opened = (right.mark job now).2.opened := by
  rw [Ledger.mark_opened, Ledger.mark_opened, mirrors.window, mirrors.isStale]

/-- A call that is not foreign to the job is answered alike. -/
theorem afterCall (mirrors : Mirrors job paired left right) (own : call.isForeign job = false) :
    ∃ wider, paired ≤ wider ∧
      Mirrors job wider (left.afterCall call) (right.afterCall call) ∧
      Option.Rel (LedgerAnswer.Matches wider) (left.answer? job call)
        (right.answer? job call) := by
  cases call with
  | isStale asked now window =>
      refine ⟨paired, le_rfl, mirrors, ?_⟩
      by_cases about : asked = job
      · subst about
        simp only [answer?, if_true, mirrors.isStale]
        exact .some (.isStale _)
      · simp only [answer?, about, if_false]
        exact .none
  | perform event =>
      cases event with
      | mark marked now =>
          obtain rfl : marked = job := by simpa [LedgerCall.isForeign] using own
          obtain ⟨wider, grows, pair, after⟩ := mirrors.mark now
          have opened := mirrors.mark_opened now
          refine ⟨wider, grows, after, ?_⟩
          simp only [answer?, if_true]
          generalize (left.mark marked now).2 = mark, (right.mark marked now).2 = mark' at *
          obtain ⟨generation, opens⟩ := mark
          obtain ⟨generation', opens'⟩ := mark'
          obtain rfl : opens = opens' := opened
          exact .some (.mark pair opens)
      | observe observed key value time =>
          obtain rfl : observed = job := by simpa [LedgerCall.isForeign] using own
          obtain ⟨start, after⟩ := mirrors.observe key value time
          refine ⟨paired, le_rfl, after, ?_⟩
          simp only [answer?, if_true, start]
          exact .some (.start _)
      | sweep now window => exact ⟨paired, le_rfl, mirrors.sweep now window, .none⟩
      | sweepIfDue now => exact ⟨paired, le_rfl, mirrors.sweepIfDue now, .none⟩

theorem answers (mirrors : Mirrors job paired left right) (calls : List LedgerCall) :
    ∃ wider, paired ≤ wider ∧ KeepsOrder wider ∧
      List.Forall₂ (LedgerAnswer.Matches wider) (left.answers job calls)
        (right.answers job (calls.filter (fun call => !call.isForeign job))) := by
  induction calls generalizing left right paired with
  | nil => exact ⟨paired, le_rfl, mirrors.ordered, .nil⟩
  | cons call rest ih =>
      simp only [Ledger.answers]
      cases foreign : call.isForeign job with
      | true =>
          have spared := mirrors.spared (.of_foreign foreign left) (.refl job right)
          rw [answer?_of_foreign foreign, List.filter_cons_of_neg (by simp [foreign])]
          exact ih spared
      | false =>
          obtain ⟨middle, grows, after, answered⟩ := mirrors.afterCall foreign
          obtain ⟨wider, growsOn, ordered, others⟩ := ih after
          refine ⟨wider, grows.trans growsOn, ordered, ?_⟩
          rw [List.filter_cons_of_pos (by simp [foreign]), Ledger.answers]
          generalize left.answer? job call = answer, right.answer? job call = answer' at answered
          cases answered with
          | none => exact others
          | some same => exact .cons (same.mono growsOn) others

end Mirrors

/-- What a ledger answers about one job, to marks, observations and questions whether it is stale,
is what it would answer if nothing was marked or observed for other jobs, sweeps as they are. The
generations may be other numbers then, in the same order. -/
theorem answers_without_others (window : Duration) (job : String) (calls : List LedgerCall) :
    ∃ paired, KeepsOrder paired ∧
      List.Forall₂ (LedgerAnswer.Matches paired) ((new window).answers job calls)
        ((new window).answers job (calls.filter (fun call => !call.isForeign job))) := by
  obtain ⟨paired, _, ordered, same⟩ := (Mirrors.new job window).answers calls
  exact ⟨paired, ordered, same⟩

-- The mark of the other job takes a generation, so the own ones are two and three here.
example :
    (new ⟨120⟩).answers "web" [.perform (.mark "db" 0), .perform (.mark "web" 5),
      .isStale "web" 130 ⟨120⟩, .perform (.mark "web" 130)] =
      [.mark ⟨2, true⟩, .isStale true, .mark ⟨3, true⟩] := by
  rfl

end Ledger

end ScrapeRelay
