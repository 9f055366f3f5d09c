import ScrapeRelay.Duration

/-!
# Tickers

When a loop comes around again. Deadlines are an interval apart; a tick that is
taken late skips the deadlines that have passed, but keeps to the same grid.
-/

namespace ScrapeRelay.Scrape

def tickTolerance : Duration := .ofMillis 5

/-- The deadline after one that is taken at an instant not before it. -/
def nextDeadline (interval : Duration) (deadline now : Nat) : Nat :=
  if now ≤ deadline + tickTolerance.nanos then deadline + interval.nanos
  else now + interval.nanos - (now - deadline) % interval.nanos

end ScrapeRelay.Scrape
