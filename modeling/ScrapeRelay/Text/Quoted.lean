import ScrapeRelay.Text.Hidden
import ScrapeRelay.Text.Extending

/-!
# Quoted text

How a name is shown inside an error message: between double quotes, with every
character that would not be seen, or would attach to its neighbour, written as
an escape.
-/

namespace ScrapeRelay.Text

/-- The hexadecimal digits of a number, lower case and without padding. -/
def hexDigits (n : Nat) : List Char := Nat.toDigits 16 n

def escape (c : Char) : List Char :=
  if c = '\x22' then ['\\', '\x22']
  else if c = '\\' then ['\\', '\\']
  else if c = '\n' then ['\\', 'n']
  else if c = '\t' then ['\\', 't']
  else if c = '\r' then ['\\', 'r']
  else if c = '\x00' then ['\\', '0']
  else if isHidden c || isExtending c then
    ['\\', 'u', '\x7b'] ++ hexDigits c.toNat ++ ['\x7d']
  else [c]

def quote (text : String) : String :=
  String.ofList ('\x22' :: text.toList.flatMap escape ++ ['\x22'])

end ScrapeRelay.Text
