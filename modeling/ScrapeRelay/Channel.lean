import ScrapeRelay.Delivery

/-!
# Channels as consumers

A channel takes batches until its receiving end is gone. A bounded channel that
is full does not answer.
-/

namespace ScrapeRelay

structure Channel where
  /-- How many batches may wait, if there is a bound. -/
  capacity : Option Nat
  waiting : List Batch
  isClosed : Bool
deriving DecidableEq

namespace Channel

def new (capacity : Option Nat) : Channel := ⟨capacity, [], false⟩

def isFull (channel : Channel) : Bool :=
  match channel.capacity with
  | some bound => bound ≤ channel.waiting.length
  | none => false

def offer (channel : Channel) (batch : Batch) : Channel × Answer :=
  if channel.isClosed then (channel, .rejected (.plain "metrics channel closed"))
  else if channel.isFull then (channel, .blocked)
  else ({ channel with waiting := channel.waiting ++ [batch] }, .accepted)

/-- Channels as consumers. Time alone never frees a full one. -/
def consumer : Consumer Channel where
  offer _ _ channel batch := channel.offer batch
  due _ _ _ := none

def receive (channel : Channel) : Channel × Option Batch :=
  match channel.waiting with
  | [] => (channel, none)
  | batch :: rest => ({ channel with waiting := rest }, some batch)

def drain (channel : Channel) : Channel × List Batch :=
  ({ channel with waiting := [] }, channel.waiting)

def close (channel : Channel) : Channel := { channel with waiting := [], isClosed := true }

end Channel

end ScrapeRelay
