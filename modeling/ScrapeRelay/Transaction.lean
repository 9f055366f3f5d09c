import ScrapeRelay.AllowList
import ScrapeRelay.Translation

/-!
# Transactions

The samples of one scrape are appended to a transaction and then committed
together or rolled back. Appending drops what the allow lists do not let through
and marks the target's activity with its first accepted sample. Committing
translates what was accepted into one batch for each target, in the order of jobs
and then of addresses.
-/

namespace ScrapeRelay

/-- The accepted samples of a target, and the generation they fall into. -/
structure PendingTarget where
  generation : Nat
  samples : List Sample
deriving DecidableEq

/-- What was accepted so far, by job and by address. -/
structure Transaction where
  pending : SortedMap (SortedMap PendingTarget)
deriving DecidableEq

namespace Transaction

def new : Transaction := ⟨.empty⟩

def ledgerKey (job address : String) : String := job ++ "/" ++ address

def get? (transaction : Transaction) (job address : String) : Option PendingTarget :=
  match transaction.pending.get? job with
  | some targets => targets.get? address
  | none => none

def set (transaction : Transaction) (job address : String) (pending : PendingTarget) :
    Transaction :=
  ⟨transaction.pending.update job (fun targets => (targets.getD .empty).insert address pending)⟩

def append (filter : AllowList) (now : Nat) (ledger : Ledger) (transaction : Transaction)
    (address job : String) (sample : Sample) : Ledger × Transaction :=
  if filter.admits job address sample.name then
    match transaction.get? job address with
    | some pending =>
        (ledger, transaction.set job address
          { pending with samples := pending.samples ++ [sample] })
    | none =>
        let (ledger, mark) := ledger.mark (ledgerKey job address) now
        (ledger, transaction.set job address ⟨mark.generation, [sample]⟩)
  else (ledger, transaction)

/-- The targets of a transaction, in the order of jobs and then of addresses. -/
def targets (transaction : Transaction) : List (Node × PendingTarget) :=
  transaction.pending.entries.flatMap (fun job =>
    job.2.entries.map (fun target => (⟨job.1, target.1⟩, target.2)))

def batchesOf (receiver : String) (ledger : Ledger) :
    List (Node × PendingTarget) → Ledger × List Batch
  | [] => (ledger, [])
  | (node, pending) :: rest =>
      let (ledger, metrics) :=
        Translation.metricsOf ledger (ledgerKey node.job node.address) pending.samples
      let (ledger, others) := batchesOf receiver ledger rest
      (ledger, ⟨receiver, node, pending.generation, metrics⟩ :: others)

/-- Close a transaction: its batches are made, and the ledger is swept if that is
due. Handing the batches to the consumer is left. -/
def commit (receiver : String) (now : Nat) (ledger : Ledger) (transaction : Transaction) :
    Ledger × List Batch :=
  let (ledger, batches) := batchesOf receiver ledger transaction.targets
  ((ledger.sweepIfDue now).1, batches)

end Transaction

end ScrapeRelay
