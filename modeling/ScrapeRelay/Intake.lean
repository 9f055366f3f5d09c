import ScrapeRelay.Delivery
import ScrapeRelay.Scrape.Sink
import ScrapeRelay.Transaction

/-!
# The intake

The sink of a receiver: transactions are filtered, translated against the
activity ledger, and handed to the consumer as batches.
-/

namespace ScrapeRelay

structure Intake (γ : Type) where
  ledger : Ledger
  consumer : γ

structure IntakeSettings (γ : Type) where
  receiver : String
  filter : AllowList
  consumer : Consumer γ
  /-- The instant that the ledger takes for an instant of the sink. -/
  ledgerTime : Nat → Nat

namespace Intake

variable {γ : Type}

def append (settings : IntakeSettings γ) (now : Nat) (intake : Intake γ)
    (transaction : Transaction) (address job : String) (sample : Sample) :
    Intake γ × Transaction :=
  let (ledger, transaction) := transaction.append settings.filter (settings.ledgerTime now)
    intake.ledger address job sample
  ({ intake with ledger := ledger }, transaction)

/-- Close a transaction; its batches are still to be offered. -/
def commit (settings : IntakeSettings γ) (now : Nat) (intake : Intake γ)
    (transaction : Transaction) : Intake γ × Delivery :=
  let (ledger, batches) :=
    transaction.commit settings.receiver (settings.ledgerTime now) intake.ledger
  ({ intake with ledger := ledger }, .new now batches)

/-- Offer the batches of a commit until one is not answered. -/
def resume (settings : IntakeSettings γ) (now : Nat) (intake : Intake γ) (delivery : Delivery) :
    Scrape.Resumption (Intake γ) Delivery :=
  let progress := delivery.run settings.consumer now intake.consumer
  ⟨{ intake with consumer := progress.consumer }, progress.rejections.map Notice.batchRejected,
    progress.rest, progress.rest.result?⟩

def sink (settings : IntakeSettings γ) : Scrape.Sink (Intake γ) Transaction Delivery where
  begin := .new
  append now intake transaction address job sample :=
    let (intake, transaction) := intake.append settings now transaction address job sample
    (intake, .ok transaction)
  rollback _ intake _ := intake
  commit now intake transaction := intake.commit settings now transaction
  isBlocked now intake delivery := delivery.isBlocked settings.consumer now intake.consumer
  resume now intake delivery := intake.resume settings now delivery
  due intake delivery := delivery.due settings.consumer intake.consumer

end Intake

end ScrapeRelay
