import ScrapeRelay.Binary64

/-!
# Durations

A span of time in whole nanoseconds. Instants are counted the same way from
some fixed origin.
-/

namespace ScrapeRelay

structure Duration where
  nanos : Nat
deriving DecidableEq, Inhabited

namespace Duration

def ofMillis (count : Nat) : Duration := ⟨count * 1000000⟩

def ofSeconds (count : Nat) : Duration := ⟨count * 1000000000⟩

def millis (duration : Duration) : Nat := duration.nanos / 1000000

/-- The length in seconds. The whole seconds, the rest as a fraction of one and the sum of
both are rounded in turn. -/
def seconds (duration : Duration) : Binary64 :=
  let fraction := Float.ofNat (duration.nanos % 1000000000) / Float.ofNat 1000000000
  ⟨(Float.ofNat (duration.nanos / 1000000000) + fraction).toBits⟩

def isZero (duration : Duration) : Bool := duration.nanos = 0

def half (duration : Duration) : Duration := ⟨duration.nanos / 2⟩

def min (left right : Duration) : Duration := if right.nanos < left.nanos then right else left

end Duration

end ScrapeRelay
