import ScrapeRelay.Failure
import ScrapeRelay.Notice
import ScrapeRelay.Sample

/-!
# Sinks

A sink takes the samples of a scrape in one transaction. Committing has a part
that happens at once and a part that may wait. Instants are nanoseconds from a
fixed origin.
-/

namespace ScrapeRelay.Scrape

/-- How far a commit got: the sink after it, what it reports, what is left of it,
and its result once it has one. -/
structure Resumption (σ π : Type) where
  state : σ
  notices : List Notice
  rest : π
  result : Option (Except Failure Unit)

/-- A sink with its state `σ`, its open transactions `τ` and its commits in
progress `π`. -/
structure Sink (σ τ π : Type) where
  begin : τ
  /-- Add a sample of a target, given by address and job. -/
  append : (now : Nat) → σ → τ → (address job : String) → Sample → σ × Except Failure τ
  rollback : (now : Nat) → σ → τ → σ
  /-- Close a transaction, as far as that happens at once. -/
  commit : (now : Nat) → σ → τ → σ × π
  isBlocked : (now : Nat) → σ → π → Bool
  /-- Go on with a commit as far as possible. -/
  resume : (now : Nat) → σ → π → Resumption σ π
  /-- The instant from which a waiting commit can go on, if time alone makes it so. -/
  due : σ → π → Option Nat

end ScrapeRelay.Scrape
