import ScrapeRelay.Intake
import ScrapeRelay.Scrape.Loop

/-!
# Keeping track of deeds

What loops do to the scraper and to the sink, and a sink to its consumer, can be read
off a trace that is kept beside the states. The trace does not change what is done.
-/

namespace ScrapeRelay

/-- A state and what was done to it, in order. -/
structure Traced (δ σ : Type) where
  state : σ
  deeds : List δ

namespace Traced

variable {δ σ : Type}

def untouched (state : σ) : Traced δ σ := ⟨state, []⟩

def mapState (change : σ → σ) (traced : Traced δ σ) : Traced δ σ :=
  { traced with state := change traced.state }

def after (deed : δ) (state : σ) (traced : Traced δ σ) : Traced δ σ :=
  ⟨state, traced.deeds ++ [deed]⟩

end Traced

variable {γ : Type}

def Consumer.traced (consumer : Consumer γ) : Consumer (Traced Batch γ) where
  offer offered now traced batch :=
    let (state, answer) := consumer.offer offered now traced.state batch
    (traced.after batch state, answer)
  due offered traced batch := consumer.due offered traced.state batch

namespace Scrape

variable {κ σ τ π : Type}

def Scraper.traced (scraper : Scraper κ) : Scraper (Traced Target κ) :=
  fun now traced target job =>
    let (state, response) := scraper now traced.state target job
    (traced.after target state, response)

inductive SinkDeed where
  | append (address job : String) (sample : Sample)
  | rollback
  | commit
  | resume
deriving DecidableEq

/-- A sink that keeps track of what it is given to do. -/
def Sink.traced (sink : Sink σ τ π) : Sink (Traced SinkDeed σ) τ π where
  begin := sink.begin
  append now traced transaction address job sample :=
    let (state, result) := sink.append now traced.state transaction address job sample
    (traced.after (.append address job sample) state, result)
  rollback now traced transaction :=
    traced.after .rollback (sink.rollback now traced.state transaction)
  commit now traced transaction :=
    let (state, commit) := sink.commit now traced.state transaction
    (traced.after .commit state, commit)
  isBlocked now traced commit := sink.isBlocked now traced.state commit
  resume now traced commit :=
    let outcome := sink.resume now traced.state commit
    ⟨traced.after .resume outcome.state, outcome.notices, outcome.rest, outcome.result⟩
  due traced commit := sink.due traced.state commit

end Scrape

end ScrapeRelay
