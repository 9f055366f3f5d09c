import ScrapeRelay.Binary64

/-!
# JSON values

Objects keep their members in the order of the text, repetitions included, and
integers of 64 bits are kept apart from all other numbers. A string whose escapes
name no character is kept as a value of its own, so that it can be skipped but
not read.
-/

namespace ScrapeRelay

inductive Json where
  | null
  | bool (value : Bool)
  /-- A number without fraction and exponent that fits 64 bits. -/
  | integer (value : Int)
  /-- Any other number, rounded; infinite if it is too large. -/
  | real (value : Binary64)
  | text (value : String)
  /-- A string that holds half of a surrogate pair. -/
  | brokenText
  | array (elements : List Json)
  /-- Members in order. A broken name is missing. -/
  | object (members : List (Option String × Json))
deriving Inhabited

namespace Json

def ofInt (value : Int) : Json := .integer value

def ofNat (value : Nat) : Json := .integer (Int.ofNat value)

def record (members : List (String × Json)) : Json :=
  .object (members.map (fun member => (some member.1, member.2)))

def membersNamed (name : String) : List (Option String × Json) → List Json
  | [] => []
  | (key, value) :: rest =>
      if key = some name then value :: membersNamed name rest else membersNamed name rest

/-- The value of an integer, if it is one. A zero with a minus sign is not. -/
def int? : Json → Option Int
  | .integer value => some value
  | _ => none

/-- The floating-point value of a number, if it is finite; of an integer the nearest. -/
def real? : Json → Option Binary64
  | .integer value => some (.ofInt value)
  | .real value => if value.isFinite then some value else none
  | _ => none

end Json

end ScrapeRelay
