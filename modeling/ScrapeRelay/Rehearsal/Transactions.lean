import ScrapeRelay.Channel
import ScrapeRelay.Intake

/-!
# Rehearsing transactions

Transactions of one intake, several of them open at a time, in front of a consumer
that follows a script. For the ledger all steps happen at one instant, unless a
step says how much later it is.
-/

namespace ScrapeRelay.Rehearsal

inductive ScriptedConsumer where
  | collecting (batches : List Batch)
  /-- Refuses the batches of the listed addresses, or all if none is listed. -/
  | refusing (message : String) (addresses : List String) (batches : List Batch)
  | channel (line : Channel)

namespace ScriptedConsumer

def offer (consumer : ScriptedConsumer) (batch : Batch) : ScriptedConsumer × Answer :=
  match consumer with
  | .collecting batches => (.collecting (batches ++ [batch]), .accepted)
  | .refusing message addresses batches =>
      let address := batch.node.address
      if addresses.isEmpty || addresses.contains address then
        (consumer, .rejected (.plain (message ++ " (" ++ address ++ ")")))
      else (.refusing message addresses (batches ++ [batch]), .accepted)
  | .channel line =>
      let (line, answer) := line.offer batch
      (.channel line, answer)

def consumer : Consumer ScriptedConsumer where
  offer _ _ consumer batch := consumer.offer batch
  due _ _ _ := none

/-- Whether batches wait in a channel until they are taken out. -/
def isChannel : ScriptedConsumer → Bool
  | .channel _ => true
  | _ => false

def drain : ScriptedConsumer → ScriptedConsumer × List Batch
  | .collecting batches => (.collecting [], batches)
  | .refusing message addresses batches => (.refusing message addresses [], batches)
  | .channel line =>
      let (line, batches) := line.drain
      (.channel line, batches)

def close : ScriptedConsumer → ScriptedConsumer
  | .channel line => .channel line.close
  | other => other

end ScriptedConsumer

/-- A step of a rehearsal. Instants are nanoseconds after the common one. -/
inductive TransactionStep where
  | begin (name : String)
  | append (name address job : String) (sample : Sample)
  | commit (name : String)
  | rollback (name : String)
  | close
  | drain
  | mark (after : Nat) (key : String)
  | isStale (after : Nat) (key : String) (window : Duration)
  | sweep (after : Nat) (window : Duration)
  | sweepIfDue (after : Nat)

inductive TransactionAnswer where
  | done
  | failed (failure : Failure)
  | blocked
  | marked (mark : Mark)
  | truth (value : Bool)
  | count (value : Nat)

/-- Transactions by name in front of an intake, and how long blocked commits were
waited for. -/
structure TransactionRehearsal where
  settings : IntakeSettings ScriptedConsumer
  intake : Intake ScriptedConsumer
  transactions : SortedMap Transaction
  waited : Duration

namespace TransactionRehearsal

def patience : Duration := .ofMillis 100

def new (receiver : String) (filter : AllowList) (window : Duration)
    (consumer : ScriptedConsumer) : TransactionRehearsal :=
  ⟨⟨receiver, filter, ScriptedConsumer.consumer, fun _ => 0⟩, ⟨.new window, consumer⟩, .empty, ⟨0⟩⟩

/-- A transaction by name; one that was never begun is empty. -/
def transaction (rehearsal : TransactionRehearsal) (name : String) : Transaction :=
  (rehearsal.transactions.get? name).getD .new

def setLedger (rehearsal : TransactionRehearsal) (ledger : Ledger) : TransactionRehearsal :=
  { rehearsal with intake := { rehearsal.intake with ledger := ledger } }

def commit (rehearsal : TransactionRehearsal) (name : String) :
    TransactionRehearsal × TransactionAnswer × List Notice :=
  let (intake, delivery) :=
    rehearsal.intake.commit rehearsal.settings 0 (rehearsal.transaction name)
  let outcome := intake.resume rehearsal.settings 0 delivery
  let rehearsal := { rehearsal with
    intake := outcome.state
    transactions := rehearsal.transactions.erase name }
  match outcome.result with
  | some (.ok _) => (rehearsal, .done, outcome.notices)
  | some (.error failure) => (rehearsal, .failed failure, outcome.notices)
  | none =>
      ({ rehearsal with waited := ⟨rehearsal.waited.nanos + patience.nanos⟩ }, .blocked,
        outcome.notices)

def step (rehearsal : TransactionRehearsal) :
    TransactionStep → TransactionRehearsal × TransactionAnswer × List Notice
  | .begin name =>
      ({ rehearsal with transactions := rehearsal.transactions.insert name .new }, .done, [])
  | .append name address job sample =>
      let (intake, transaction) := rehearsal.intake.append rehearsal.settings 0
        (rehearsal.transaction name) address job sample
      ({ rehearsal with
          intake := intake
          transactions := rehearsal.transactions.insert name transaction }, .done, [])
  | .commit name => rehearsal.commit name
  | .rollback name =>
      ({ rehearsal with transactions := rehearsal.transactions.erase name }, .done, [])
  | .close =>
      ({ rehearsal with
          intake := { rehearsal.intake with consumer := rehearsal.intake.consumer.close } },
        .done, [])
  | .drain => (rehearsal, .done, [])
  | .mark after key =>
      let (ledger, mark) := rehearsal.intake.ledger.mark key after
      (rehearsal.setLedger ledger, .marked mark, [])
  | .isStale after key window =>
      (rehearsal, .truth (rehearsal.intake.ledger.isStale key after window), [])
  | .sweep after window =>
      let (ledger, count) := rehearsal.intake.ledger.sweep after window
      (rehearsal.setLedger ledger, .count count, [])
  | .sweepIfDue after =>
      let (ledger, count) := rehearsal.intake.ledger.sweepIfDue after
      (rehearsal.setLedger ledger, .count count, [])

/-- Take out the batches that reached the consumer; those in a channel may be held
back. -/
def drain (hold : Bool) (rehearsal : TransactionRehearsal) : TransactionRehearsal × List Batch :=
  if hold && rehearsal.intake.consumer.isChannel then (rehearsal, [])
  else
    let (consumer, batches) := rehearsal.intake.consumer.drain
    ({ rehearsal with intake := { rehearsal.intake with consumer := consumer } }, batches)

end TransactionRehearsal

end ScrapeRelay.Rehearsal
