/-!
# Decimal numerals

Natural numbers in ASCII decimal digits, read and written.
-/

namespace ScrapeRelay.Text

def isDigit (c : Char) : Bool := '0' ≤ c && c ≤ '9'

def digitValue (c : Char) : Nat := c.toNat - '0'.toNat

def numeral (digits : List Char) : Nat :=
  digits.foldl (fun value digit => value * 10 + digitValue digit) 0

def wordLimit : Nat := UInt64.size

def digits? (text : List Char) : Option Nat :=
  if text.isEmpty then none
  else if text.all isDigit then some (numeral text)
  else none

def word? (text : List Char) : Option Nat :=
  let unsigned := match text with
    | '+' :: rest => rest
    | other => other
  match digits? unsigned with
  | some value => if value < wordLimit then some value else none
  | none => none

def decimal (n : Nat) : String := String.ofList (Nat.toDigits 10 n)

end ScrapeRelay.Text
