/-!
# Boards

A board shows one value, which is replaced as a whole. Readers see the latest
value only; each replacement has a number, by which a reader tells whether there
is something new.
-/

namespace ScrapeRelay

structure Board (α : Type) where
  value : α
  version : Nat
  /-- Whether nobody is left to replace the value. -/
  isClosed : Bool
deriving DecidableEq

namespace Board

variable {α : Type}

def new (value : α) : Board α := ⟨value, 0, false⟩

def post (board : Board α) (value : α) : Board α :=
  if board.isClosed then board else { board with value := value, version := board.version + 1 }

def close (board : Board α) : Board α := { board with isClosed := true }

end Board

end ScrapeRelay
