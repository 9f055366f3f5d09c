import ScrapeRelay.Json
import ScrapeRelay.Text.Decimal

/-!
# Writing JSON

JSON texts without blanks. A floating-point number is written exactly, with all
its decimal digits.
-/

namespace ScrapeRelay

/-- A finite value as `mantissa * 10 ^ -places`, exactly, without its sign. -/
def Binary64.exactDecimal (value : Binary64) : Nat × Nat :=
  let field := value.exponentField
  let mantissa := if field = 0 then value.fraction else value.fraction + fractionLimit
  let shift : Int := Int.ofNat (if field = 0 then 1 else field) - 1075
  if 0 ≤ shift then (mantissa * Nat.pow 2 shift.toNat, 0)
  else (mantissa * Nat.pow 5 shift.natAbs, shift.natAbs)

namespace Json

open ScrapeRelay.Text

def escapeUnit (code : Nat) : String :=
  let digits := Nat.toDigits 16 code
  "\\u" ++ String.ofList (List.replicate (4 - digits.length) '0' ++ digits)

def escapeChar (c : Char) : String :=
  if c = '\x22' then "\\\x22"
  else if c = '\\' then "\\\\"
  else if c = '\n' then "\\n"
  else if c = '\r' then "\\r"
  else if c = '\t' then "\\t"
  else if c = '\x08' then "\\b"
  else if c = '\x0c' then "\\f"
  else if c.toNat < 0x20 then escapeUnit c.toNat
  else String.singleton c

def writeText (out value : String) : String :=
  (value.toList.foldl (fun out c => out ++ escapeChar c) (out ++ "\x22")) ++ "\x22"

/-- The text of a floating-point number; there is none for an infinity or NaN. -/
def realText (value : Binary64) : String :=
  if value.isFinite then
    let (mantissa, places) := value.exactDecimal
    let sign := if value.isNegative then "-" else ""
    sign ++ decimal mantissa ++ "e-" ++ decimal places
  else "null"

mutual

def write (out : String) : Json → String
  | .null => out ++ "null"
  | .bool value => out ++ (if value then "true" else "false")
  | .integer value => out ++ (if value < 0 then "-" else "") ++ decimal value.natAbs
  | .real value => out ++ realText value
  | .text value => writeText out value
  | .brokenText => out ++ "\x22\x22"
  | .array [] => out ++ "[]"
  | .array (first :: rest) => writeElements (write (out ++ "[") first) rest ++ "]"
  | .object [] => out ++ "\x7b\x7d"
  | .object ((name, value) :: rest) =>
      writeMembers (write (writeText (out ++ "\x7b") (name.getD "") ++ ":") value) rest ++ "\x7d"

def writeElements (out : String) : List Json → String
  | [] => out
  | value :: rest => writeElements (write (out ++ ",") value) rest

def writeMembers (out : String) : List (Option String × Json) → String
  | [] => out
  | (name, value) :: rest =>
      writeMembers (write (writeText (out ++ ",") (name.getD "") ++ ":") value) rest

end

def render (value : Json) : String := write "" value

end Json

end ScrapeRelay
