import ScrapeRelay.Failure
import ScrapeRelay.Metric

/-!
# Delivering batches

The batches of a commit are offered to the consumer one after the other. A
rejected batch does not keep the later ones back; the commit ends with the
failure of the last rejected batch, if there is any. A consumer that does not
answer holds everything behind it up.
-/

namespace ScrapeRelay

inductive Answer where
  | accepted
  | rejected (cause : Cause)
  | blocked
deriving DecidableEq

/-- What takes batches in the end. Instants are nanoseconds from a fixed origin. -/
structure Consumer (γ : Type) where
  /-- Answer to a batch that was first offered at one instant and still is at another. -/
  offer : (offered now : Nat) → γ → Batch → γ × Answer
  /-- The instant from which a batch is answered, if time alone makes it so. -/
  due : (offered : Nat) → γ → Batch → Option Nat

structure Rejection where
  node : Node
  cause : Cause
deriving DecidableEq

/-- What is left of a commit: the batches that were not answered yet, the instant
from which the first of them is offered, and the cause of the last rejection. -/
structure Delivery where
  batches : List Batch
  offered : Nat
  rejection : Option Cause
deriving DecidableEq

namespace Delivery

def new (now : Nat) (batches : List Batch) : Delivery := ⟨batches, now, none⟩

/-- The result of a commit, which is missing while a batch is not answered. -/
def result? (delivery : Delivery) : Option (Except Failure Unit) :=
  if delivery.batches.isEmpty then
    match delivery.rejection with
    | some cause => some (.error (.consumer cause))
    | none => some (.ok ())
  else none

variable {γ : Type}

/-- How far a delivery got: the consumer after it, the rejections in order, and what
is left. -/
structure Progress (γ : Type) where
  consumer : γ
  rejections : List Rejection
  rest : Delivery

/-- Offer batches until one is not answered. The first is offered from a given
instant on, the others from now on. -/
def offerAll (taker : Consumer γ) (now offered : Nat) (consumer : γ) (rejection : Option Cause) :
    List Batch → Progress γ
  | [] => ⟨consumer, [], ⟨[], offered, rejection⟩⟩
  | batch :: rest =>
      match taker.offer offered now consumer batch with
      | (consumer, .accepted) => offerAll taker now now consumer rejection rest
      | (consumer, .rejected cause) =>
          let progress := offerAll taker now now consumer (some cause) rest
          { progress with rejections := ⟨batch.node, cause⟩ :: progress.rejections }
      | (consumer, .blocked) => ⟨consumer, [], ⟨batch :: rest, offered, rejection⟩⟩

def run (taker : Consumer γ) (now : Nat) (consumer : γ) (delivery : Delivery) : Progress γ :=
  offerAll taker now delivery.offered consumer delivery.rejection delivery.batches

/-- Whether the first batch of what is left is not answered now. -/
def isBlocked (taker : Consumer γ) (now : Nat) (consumer : γ) (delivery : Delivery) : Bool :=
  match delivery.batches with
  | [] => false
  | batch :: _ => (taker.offer delivery.offered now consumer batch).2 = .blocked

/-- The instant from which the first batch of what is left is answered, if time
alone makes it so. -/
def due (taker : Consumer γ) (consumer : γ) (delivery : Delivery) : Option Nat :=
  match delivery.batches with
  | [] => none
  | batch :: _ => taker.due delivery.offered consumer batch

end Delivery

end ScrapeRelay
