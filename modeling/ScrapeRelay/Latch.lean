/-!
# Latches

A latch lets exactly one caller through.
-/

namespace ScrapeRelay

structure Latch where
  isDone : Bool
deriving DecidableEq

namespace Latch

def new : Latch := ⟨false⟩

def pass (latch : Latch) : Latch × Bool := (⟨true⟩, !latch.isDone)

end Latch

end ScrapeRelay
