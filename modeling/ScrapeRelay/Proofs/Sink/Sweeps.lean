import ScrapeRelay.Proofs.Sink.Desk

/-!
# Sweeping is not seen

A sweep forgets the records of jobs that are stale, and a stale job enters a new generation
at its next mark just as an unknown one does. So two ledgers that differ in stale jobs only
(`Interchangeable`) answer all marks alike, and a mark makes them agree on the job. What is
swept when makes no difference to the batches of transactions that are appended and committed
at one instant each (`offered_regardless_of_sweeps`).
-/

namespace ScrapeRelay

namespace Ledger

/-- Two ledgers agree on all jobs of interest, and on every other one unless it is stale in
both. -/
structure Interchangeable (now : Nat) (fixed : String → Prop) (left right : Ledger) : Prop where
  window : left.window = right.window
  nextGeneration : left.nextGeneration = right.nextGeneration
  records : ∀ job, left.records.get? job = right.records.get? job ∨
    (¬ fixed job ∧ left.isStale job now left.window = true ∧
      right.isStale job now right.window = true)

/-- No job is of interest. -/
abbrev unfixed (_ : String) : Prop := False

variable {now later : Nat} {fixed fewer : String → Prop} {left right : Ledger} {job key : String}

theorem isStale_congr {first second : Ledger} {window : Duration}
    (same : first.records.get? job = second.records.get? job) :
    first.isStale job now window = second.isStale job now window := by
  rw [isStale, isStale, same]

namespace Interchangeable

theorem refl (now : Nat) (fixed : String → Prop) (ledger : Ledger) :
    Interchangeable now fixed ledger ledger :=
  ⟨rfl, rfl, fun _ => .inl rfl⟩

theorem symm (alike : Interchangeable now fixed left right) :
    Interchangeable now fixed right left := by
  refine ⟨alike.window.symm, alike.nextGeneration.symm, ?_⟩
  intro job
  rcases alike.records job with same | ⟨free, stale, stale'⟩
  · exact .inl same.symm
  · exact .inr ⟨free, stale', stale⟩

theorem mono (alike : Interchangeable now fixed left right)
    (included : ∀ job, fewer job → fixed job) : Interchangeable now fewer left right := by
  refine ⟨alike.window, alike.nextGeneration, ?_⟩
  intro job
  rcases alike.records job with same | ⟨free, stale, stale'⟩
  · exact .inl same
  · exact .inr ⟨fun held => free (included job held), stale, stale'⟩

theorem wait (alike : Interchangeable now fixed left right) (order : now ≤ later) :
    Interchangeable later fixed left right := by
  refine ⟨alike.window, alike.nextGeneration, ?_⟩
  intro job
  rcases alike.records job with same | ⟨free, stale, stale'⟩
  · exact .inl same
  · exact .inr ⟨free, isStale_later order stale, isStale_later order stale'⟩

/-- Records of one job are replaced by the same record. -/
theorem keeping (alike : Interchangeable now fixed left right) (job : String)
    (record : LedgerRecord) :
    Interchangeable now (fun other => other = job ∨ fixed other) (left.keeping job record)
      (right.keeping job record) := by
  refine ⟨alike.window, alike.nextGeneration, ?_⟩
  intro other
  by_cases own : other = job
  · subst own
    exact .inl (by simp [Ledger.keeping])
  · have kept (ledger : Ledger) :
        (ledger.keeping job record).records.get? other = ledger.records.get? other :=
      SortedMap.get?_insert_of_ne own
    rw [kept, kept]
    rcases alike.records other with same | ⟨free, stale, stale'⟩
    · exact .inl same
    · refine .inr ⟨?_, ?_, ?_⟩
      · rintro (same | held)
        · exact own same
        · exact free held
      · rw [isStale_congr (kept left)]
        exact stale
      · rw [isStale_congr (kept right)]
        exact stale'

/-- A mark tells both ledgers apart no more, and makes them agree on the job. -/
theorem mark (alike : Interchangeable now fixed left right) (job : String) :
    (left.mark job now).2 = (right.mark job now).2 ∧
      Interchangeable now (fun other => other = job ∨ fixed other) (left.mark job now).1
        (right.mark job now).1 := by
  have stale : left.isStale job now left.window = right.isStale job now right.window := by
    rcases alike.records job with same | ⟨_, stale, stale'⟩
    · rw [isStale_congr same, alike.window]
    · rw [stale, stale']
  cases quiet : left.isStale job now left.window with
  | true =>
      rw [mark_of_stale quiet, mark_of_stale (stale.symm.trans quiet)]
      refine ⟨by rw [alike.nextGeneration], ?_⟩
      have renewed : right.renewed job now =
          { right.keeping job ⟨now, left.nextGeneration, .empty⟩ with
            nextGeneration := right.nextGeneration + 1 } := by
        rw [alike.nextGeneration]
        rfl
      obtain ⟨window, nextGeneration, records⟩ :=
        alike.keeping job ⟨now, left.nextGeneration, .empty⟩
      rw [renewed]
      exact ⟨window, congrArg (· + 1) nextGeneration, records⟩
  | false =>
      rw [quiet] at stale
      cases known : left.records.get? job with
      | none => simp [isStale_of_unknown known] at quiet
      | some record =>
          have known' : right.records.get? job = some record := by
            rcases alike.records job with same | ⟨_, stale', _⟩
            · rw [← same, known]
            · rw [quiet] at stale'
              cases stale'
          rw [isStale_of_known known] at quiet
          rw [isStale_of_known known'] at stale
          rw [mark_of_active known quiet, mark_of_active known' stale.symm]
          exact ⟨rfl, alike.keeping job _⟩

/-- Observing a job on which both ledgers agree. -/
theorem observe (alike : Interchangeable now fixed left right) (held : fixed job)
    (key : String) (value : Binary64) (time : Int64) :
    (left.observe job key value time).2 = (right.observe job key value time).2 ∧
      Interchangeable now fixed (left.observe job key value time).1
        (right.observe job key value time).1 := by
  have same : left.records.get? job = right.records.get? job := by
    rcases alike.records job with same | ⟨free, _⟩
    · exact same
    · exact absurd held free
  cases known : left.records.get? job with
  | none =>
      rw [observe_of_unknown known, observe_of_unknown (same.symm.trans known)]
      exact ⟨rfl, alike⟩
  | some record =>
      have known' := same.symm.trans known
      cases gap : value.isNaN with
      | true =>
          rw [observe_of_nan known gap, observe_of_nan known' gap]
          exact ⟨rfl, alike⟩
      | false =>
          rw [observe_of_known known gap, observe_of_known known' gap]
          exact ⟨rfl, (alike.keeping job _).mono fun _ inside => .inr inside⟩

/-- A sweep of one of the ledgers forgets stale jobs only. -/
theorem sweep (alike : Interchangeable now unfixed left right) :
    Interchangeable now unfixed (left.sweep now left.window).1 right := by
  refine ⟨alike.window, alike.nextGeneration, ?_⟩
  intro job
  have swept := left.sweep_get? now left.window job
  cases known : left.records.get? job with
  | none =>
      rw [known, Option.filter_none] at swept
      rcases alike.records job with same | ⟨free, _, stale⟩
      · exact .inl (by rw [swept, ← same, known])
      · exact .inr ⟨free, isStale_of_unknown swept, stale⟩
  | some record =>
      cases quiet : record.isQuiet now left.window with
      | false =>
          have kept : (left.sweep now left.window).1.records.get? job =
              left.records.get? job := by
            rw [swept, known]
            simp [Option.filter, quiet]
          rcases alike.records job with same | ⟨free, stale, stale'⟩
          · exact .inl (kept.trans same)
          · rw [isStale_of_known known, quiet] at stale
            cases stale
      | true =>
          have dropped : (left.sweep now left.window).1.records.get? job = none := by
            rw [swept, known]
            simp [Option.filter, quiet]
          refine .inr ⟨id, isStale_of_unknown dropped, ?_⟩
          rcases alike.records job with same | ⟨_, _, stale⟩
          · rw [isStale_of_known (same.symm.trans known), ← alike.window, quiet]
          · exact stale

theorem sweepIfDue (alike : Interchangeable now unfixed left right) :
    Interchangeable now unfixed (left.sweepIfDue now).1 right := by
  rcases left.sweepIfDue_cases now with swept | same
  · rw [swept]
    exact alike.sweep
  · rw [same]
    exact alike

end Interchangeable

end Ledger

open Ledger (Interchangeable)

namespace Transaction

variable {now : Nat} {left right : Ledger} {transaction : Transaction}

/-- The jobs of the ledger that a transaction has marked. -/
def Marks (transaction : Transaction) (job : String) : Prop :=
  ∃ node ∈ transaction.targets.map Prod.fst, ledgerKey node.job node.address = job

theorem mem_targets_set {job address : String} {pending : PendingTarget} {node : Node}
    (member : node ∈ (transaction.set job address pending).targets.map Prod.fst) :
    node = ⟨job, address⟩ ∨ node ∈ transaction.targets.map Prod.fst := by
  obtain ⟨⟨_, held⟩, listed, rfl⟩ := List.mem_map.mp member
  rw [mem_targets_iff] at listed
  rename_i node
  by_cases own : node = ⟨job, address⟩
  · exact .inl own
  · rw [get?_set_of_ne own] at listed
    exact .inr (List.mem_map.mpr ⟨(node, held), mem_targets_iff.mpr listed, rfl⟩)

theorem append_alike (filter : AllowList)
    (alike : Interchangeable now transaction.Marks left right) (address job : String)
    (sample : Sample) :
    (transaction.append filter now left address job sample).2 =
        (transaction.append filter now right address job sample).2 ∧
      Interchangeable now (transaction.append filter now left address job sample).2.Marks
        (transaction.append filter now left address job sample).1
        (transaction.append filter now right address job sample).1 := by
  cases admitted : filter.admits job address sample.name with
  | false =>
      rw [append_of_rejected admitted, append_of_rejected admitted]
      exact ⟨rfl, alike⟩
  | true =>
      unfold append
      rw [if_pos admitted, if_pos admitted]
      cases held : transaction.get? job address with
      | some pending =>
          refine ⟨rfl, alike.mono ?_⟩
          rintro key ⟨node, member, same⟩
          rcases mem_targets_set member with rfl | old
          · exact ⟨_, List.mem_map.mpr ⟨(⟨job, address⟩, pending),
              mem_targets_iff.mpr held, rfl⟩, same⟩
          · exact ⟨node, old, same⟩
      | none =>
          obtain ⟨answer, after⟩ := alike.mark (ledgerKey job address)
          refine ⟨by simp only [answer], after.mono ?_⟩
          rintro key ⟨node, member, same⟩
          rcases mem_targets_set member with rfl | old
          · exact .inl same.symm
          · exact .inr ⟨node, old, same⟩

theorem batchesOf_alike {fixed : String → Prop} (alike : Interchangeable now fixed left right)
    (receiver : String) (targets : List (Node × PendingTarget))
    (held : ∀ target ∈ targets, fixed (ledgerKey target.1.job target.1.address)) :
    (batchesOf receiver left targets).2 = (batchesOf receiver right targets).2 ∧
      Interchangeable now fixed (batchesOf receiver left targets).1
        (batchesOf receiver right targets).1 := by
  induction targets generalizing left right with
  | nil => exact ⟨rfl, alike⟩
  | cons target rest ih =>
      obtain ⟨metrics, after⟩ := Translation.metricsOf_alike
        (fun _ _ alike => alike.observe (held target List.mem_cons_self)) alike target.2.samples
      obtain ⟨others, last⟩ := ih after fun other member =>
        held other (List.mem_cons_of_mem _ member)
      refine ⟨?_, last⟩
      simp only [batchesOf, metrics]
      exact congrArg _ others

/-- Append samples of any targets at one instant. -/
def appendAll (filter : AllowList) (now : Nat) (ledger : Ledger) (transaction : Transaction) :
    List (Node × Sample) → Ledger × Transaction
  | [] => (ledger, transaction)
  | (node, sample) :: rest =>
      let (ledger, transaction) :=
        transaction.append filter now ledger node.address node.job sample
      appendAll filter now ledger transaction rest

theorem appendAll_alike (filter : AllowList)
    (alike : Interchangeable now transaction.Marks left right) (samples : List (Node × Sample)) :
    (transaction.appendAll filter now left samples).2 =
        (transaction.appendAll filter now right samples).2 ∧
      Interchangeable now (transaction.appendAll filter now left samples).2.Marks
        (transaction.appendAll filter now left samples).1
        (transaction.appendAll filter now right samples).1 := by
  induction samples generalizing transaction left right with
  | nil => exact ⟨rfl, alike⟩
  | cons entry rest ih =>
      obtain ⟨same, after⟩ := append_alike filter alike entry.1.address entry.1.job entry.2
      have step := ih after
      simp only [appendAll]
      rw [← same]
      exact step

end Transaction

/-- A transaction whose samples are appended, and which is closed, at one instant. -/
structure Round where
  now : Nat
  samples : List (Node × Sample)
  commits : Bool
deriving DecidableEq

inductive RoundEvent where
  /-- A transaction. A commit ends with a sweep, if that is due, or does without. -/
  | transact (round : Round) (sweeps : Bool)
  | sweepIfDue (now : Nat)
  /-- A sweep, due or not, with the window of the ledger. -/
  | sweep (now : Nat)

namespace RoundEvent

def now : RoundEvent → Nat
  | .transact round _ => round.now
  | .sweepIfDue now => now
  | .sweep now => now

def round? : RoundEvent → Option Round
  | .transact round _ => some round
  | _ => none

end RoundEvent

namespace Ledger

variable {now : Nat} {left right : Ledger}

/-- The ledger after a transaction, and the batches it offers to the consumer. -/
def round (receiver : String) (filter : AllowList) (ledger : Ledger) (round : Round)
    (sweeps : Bool) : Ledger × List Batch :=
  let (ledger, transaction) := Transaction.new.appendAll filter round.now ledger round.samples
  if round.commits then
    if sweeps then transaction.commit receiver round.now ledger
    else Transaction.batchesOf receiver ledger transaction.targets
  else (ledger, [])

/-- What the transactions of a run offer to the consumer, one after the other. -/
def offered (receiver : String) (filter : AllowList) (ledger : Ledger) :
    List RoundEvent → List (List Batch)
  | [] => []
  | .transact round sweeps :: rest =>
      let (ledger, batches) := ledger.round receiver filter round sweeps
      batches :: offered receiver filter ledger rest
  | .sweepIfDue now :: rest => offered receiver filter (ledger.sweepIfDue now).1 rest
  | .sweep now :: rest => offered receiver filter (ledger.sweep now ledger.window).1 rest

/-- A transaction offers the same to either ledger, whether it ends with a sweep or not. -/
theorem round_alike (receiver : String) (filter : AllowList) {round : Round}
    (alike : Interchangeable round.now unfixed left right) (sweeps sweeps' : Bool) :
    (left.round receiver filter round sweeps).2 = (right.round receiver filter round sweeps').2 ∧
      Interchangeable round.now unfixed (left.round receiver filter round sweeps).1
        (right.round receiver filter round sweeps').1 := by
  have unmarked : Interchangeable round.now Transaction.new.Marks left right := by
    refine alike.mono ?_
    rintro job ⟨node, member, _⟩
    simp [Transaction.targets, Transaction.new, SortedMap.empty] at member
  obtain ⟨same, appended⟩ := Transaction.appendAll_alike filter unmarked round.samples
  unfold Ledger.round
  dsimp only
  rw [← same]
  generalize (Transaction.new.appendAll filter round.now left round.samples).2 = transaction
    at appended
  cases round.commits with
  | false => exact ⟨rfl, appended.mono fun _ nothing => nothing.elim⟩
  | true =>
      obtain ⟨batches, after⟩ := Transaction.batchesOf_alike appended receiver transaction.targets
        fun target member => ⟨target.1, List.mem_map_of_mem member, rfl⟩
      have closed : Interchangeable round.now unfixed _ _ :=
        after.mono fun _ nothing => nothing.elim
      cases sweeps with
      | false =>
          cases sweeps' with
          | false => exact ⟨batches, closed⟩
          | true => exact ⟨batches, closed.symm.sweepIfDue.symm⟩
      | true =>
          cases sweeps' with
          | false => exact ⟨batches, closed.sweepIfDue⟩
          | true => exact ⟨batches, closed.sweepIfDue.symm.sweepIfDue.symm⟩

/-- Any run offers what its transactions alone would offer, without a sweep among them. -/
theorem offered_alike (receiver : String) (filter : AllowList) {events : List RoundEvent}
    (alike : Interchangeable now unfixed left right)
    (later : ∀ event ∈ events, now ≤ event.now)
    (inOrder : events.Pairwise (fun first second => first.now ≤ second.now)) :
    left.offered receiver filter events =
      right.offered receiver filter
        ((events.filterMap RoundEvent.round?).map (RoundEvent.transact · false)) := by
  induction events generalizing now left right with
  | nil => rfl
  | cons event rest ih =>
      obtain ⟨first, ordered⟩ := List.pairwise_cons.mp inOrder
      have reached := alike.wait (later event List.mem_cons_self)
      cases event with
      | transact round sweeps =>
          obtain ⟨batches, after⟩ := round_alike receiver filter reached sweeps false
          have others := ih after first ordered
          simp only [offered, List.filterMap_cons, RoundEvent.round?, List.map_cons]
          rw [batches, others]
      | sweepIfDue now => exact ih reached.sweepIfDue first ordered
      | sweep now => exact ih reached.sweep first ordered

/-- Two runs of the same transactions, at instants that do not decrease, offer the same
batches, whichever of their commits sweep and whatever sweeps stand between them. -/
theorem offered_regardless_of_sweeps (receiver : String) (filter : AllowList) (ledger : Ledger)
    (events others : List RoundEvent)
    (inOrder : events.Pairwise (fun first second => first.now ≤ second.now))
    (othersInOrder : others.Pairwise (fun first second => first.now ≤ second.now))
    (sameRounds : events.filterMap RoundEvent.round? = others.filterMap RoundEvent.round?) :
    ledger.offered receiver filter events = ledger.offered receiver filter others := by
  have first := offered_alike receiver filter (.refl 0 unfixed ledger)
    (fun event _ => Nat.zero_le event.now) inOrder
  have second := offered_alike receiver filter (.refl 0 unfixed ledger)
    (fun event _ => Nat.zero_le event.now) othersInOrder
  rw [first, second, sameRounds]

/-- A target that is scraped again exactly when it has become stale. -/
def boundaryRound (now : Nat) : Round :=
  ⟨now, [(⟨"web", "10.0.0.1:80"⟩, ⟨"hits", .empty, .one, 7, .counter⟩)], true⟩

theorem offered_regardless_of_sweeps_boundary :
    let swept := [.transact (boundaryRound 0) true, .transact (boundaryRound 10) true]
    let moved := [.transact (boundaryRound 0) false, .sweep 10, .transact (boundaryRound 10) false]
    (swept.Pairwise (fun first second => first.now ≤ second.now) ∧
      moved.Pairwise (fun first second => first.now ≤ second.now) ∧
      swept.filterMap RoundEvent.round? = moved.filterMap RoundEvent.round?) ∧
    ((new ⟨10⟩).offered "relay" .unrestricted swept).map (List.map Batch.generation) =
      [[1], [2]] ∧
    (new ⟨10⟩).offered "relay" .unrestricted swept =
      (new ⟨10⟩).offered "relay" .unrestricted moved :=
  ⟨⟨by decide, by decide, rfl⟩, by decide +kernel,
    offered_regardless_of_sweeps "relay" .unrestricted (new ⟨10⟩) _ _ (by decide) (by decide) rfl⟩

end Ledger

end ScrapeRelay
