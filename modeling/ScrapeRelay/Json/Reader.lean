import ScrapeRelay.Json
import ScrapeRelay.Text.Decimal

/-!
# Reading JSON

A reader for JSON texts. Every part of it takes characters and returns a value
with the characters that are left; nothing but blanks may follow the value of a
whole text.

Numbers are read quickly rather than exactly: the digits that fit 64 bits are
collected first and scaled by the exponent afterwards, see `Binary64.ofScaled`.
-/

namespace ScrapeRelay.Json

open ScrapeRelay.Text

def isSpace (c : Char) : Bool := c = ' ' || c = '\n' || c = '\t' || c = '\r'

def skipSpace (input : List Char) : List Char := input.dropWhile isSpace

def hexValue? (c : Char) : Option Nat :=
  if '0' ≤ c && c ≤ '9' then some (c.toNat - '0'.toNat)
  else if 'a' ≤ c && c ≤ 'f' then some (c.toNat - 'a'.toNat + 10)
  else if 'A' ≤ c && c ≤ 'F' then some (c.toNat - 'A'.toNat + 10)
  else none

def hexQuad? (a b c d : Char) : Option Nat :=
  match hexValue? a, hexValue? b, hexValue? c, hexValue? d with
  | some a, some b, some c, some d => some (((a * 16 + b) * 16 + c) * 16 + d)
  | _, _, _, _ => none

def shortEscape? (c : Char) : Option Char :=
  if c = '\x22' then some '\x22'
  else if c = '\\' then some '\\'
  else if c = '/' then some '/'
  else if c = 'b' then some '\x08'
  else if c = 'f' then some '\x0c'
  else if c = 'n' then some '\n'
  else if c = 'r' then some '\r'
  else if c = 't' then some '\t'
  else none

/-- The rest of a string after its opening quote. The characters read so far are
given in reverse, and are missing once a part of the string was broken. -/
def readString (fuel : Nat) (done : Option (List Char)) (input : List Char) :
    Option (Option String × List Char) :=
  let push (c : Char) : Option (List Char) := done.map (c :: ·)
  match fuel, input with
  | 0, _ => none
  | _, [] => none
  | fuel + 1, c :: rest =>
      if c = '\x22' then some (done.map (fun chars => String.ofList chars.reverse), rest)
      else if c = '\\' then
        match rest with
        | 'u' :: a :: b :: c :: d :: rest =>
            match hexQuad? a b c d with
            | none => none
            | some unit =>
                if 0xD800 ≤ unit && unit < 0xDC00 then
                  match rest with
                  | '\\' :: 'u' :: a :: b :: c :: d :: after =>
                      match hexQuad? a b c d with
                      | none => none
                      | some low =>
                          if 0xDC00 ≤ low && low < 0xE000 then
                            let code := 0x10000 + (unit - 0xD800) * 0x400 + (low - 0xDC00)
                            readString fuel (push (Char.ofNat code)) after
                          else readString fuel none rest
                  | _ => readString fuel none rest
                else if 0xDC00 ≤ unit && unit < 0xE000 then readString fuel none rest
                else readString fuel (push (Char.ofNat unit)) rest
        | e :: rest =>
            match shortEscape? e with
            | some c => readString fuel (push c) rest
            | none => none
        | [] => none
      else if c.toNat < 0x20 then none
      else readString fuel (push c) rest

def spanDigits (input : List Char) : List Char × List Char :=
  (input.takeWhile isDigit, input.dropWhile isDigit)

def readExponent (input : List Char) : Option (Option Int × List Char) :=
  match input with
  | e :: rest =>
      if e = 'e' || e = 'E' then
        let (negative, rest) := match rest with
          | '-' :: rest => (true, rest)
          | '+' :: rest => (false, rest)
          | other => (false, other)
        match spanDigits rest with
        | ([], _) => none
        | (digits, rest) =>
            let magnitude := Int.ofNat (numeral digits)
            some (some (if negative then -magnitude else magnitude), rest)
      else some (none, input)
  | [] => some (none, [])

def readFraction (input : List Char) : Option (Option (List Char) × List Char) :=
  match input with
  | '.' :: rest =>
      match spanDigits rest with
      | ([], _) => none
      | (digits, rest) => some (some digits, rest)
  | other => some (none, other)

/-- Append digits to a significand for as long as it fits 64 bits. The answer is the
significand with the number of digits that are left. -/
def collect (significand : Nat) : List Char → Nat × Nat
  | [] => (significand, 0)
  | digit :: rest =>
      let next := significand * 10 + digitValue digit
      if next < wordLimit then collect next rest else (significand, rest.length + 1)

/-- A number without fraction and exponent: an integer if it fits 64 bits and is not a
zero with a minus sign. -/
def wholeNumber (negative : Bool) (whole : List Char) : Json :=
  let (significand, left) := collect 0 whole
  if left = 0 && !negative then .integer (Int.ofNat significand)
  else if left = 0 && 0 < significand && significand ≤ Int64.minValue.toInt.natAbs then
    .integer (-Int.ofNat significand)
  else .real (.ofScaled negative significand (Int.ofNat left))

def scaledNumber (negative : Bool) (whole fraction : List Char) (exponent : Int) : Json :=
  let (significand, left) := collect 0 whole
  let (significand, cut) := collect significand fraction
  let places := fraction.length - cut
  .real (.ofScaled negative significand (exponent + Int.ofNat left - Int.ofNat places))

def readNumber (input : List Char) : Option (Json × List Char) :=
  let (negative, input) := match input with
    | '-' :: rest => (true, rest)
    | other => (false, other)
  match spanDigits input with
  | ([], _) => none
  | (whole, input) =>
      if whole.head? = some '0' && whole.length ≠ 1 then none
      else
        match readFraction input with
        | none => none
        | some (fraction, input) =>
            match readExponent input with
            | none => none
            | some (exponent, input) =>
                match fraction, exponent with
                | none, none => some (wholeNumber negative whole, input)
                | _, _ =>
                    some (scaledNumber negative whole (fraction.getD []) (exponent.getD 0), input)

def expect? : List Char → List Char → Option (List Char)
  | [], input => some input
  | c :: word, d :: input => if c = d then expect? word input else none
  | _ :: _, [] => none

mutual

def readValue (fuel : Nat) (input : List Char) : Option (Json × List Char) :=
  match fuel with
  | 0 => none
  | fuel + 1 =>
      match skipSpace input with
      | [] => none
      | c :: rest =>
          if c = '\x22' then
            match readString (rest.length + 1) (some []) rest with
            | none => none
            | some (some value, rest) => some (.text value, rest)
            | some (none, rest) => some (.brokenText, rest)
          else if c = '[' then
            match skipSpace rest with
            | ']' :: rest => some (.array [], rest)
            | rest =>
                match readElements fuel rest with
                | none => none
                | some (elements, rest) => some (.array elements, rest)
          else if c = '\x7b' then
            match skipSpace rest with
            | '\x7d' :: rest => some (.object [], rest)
            | rest =>
                match readMembers fuel rest with
                | none => none
                | some (members, rest) => some (.object members, rest)
          else if c = 't' then (expect? ['r', 'u', 'e'] rest).map (fun rest => (.bool true, rest))
          else if c = 'f' then
            (expect? ['a', 'l', 's', 'e'] rest).map (fun rest => (.bool false, rest))
          else if c = 'n' then (expect? ['u', 'l', 'l'] rest).map (fun rest => (.null, rest))
          else readNumber (c :: rest)

/-- The elements of an array up to its closing bracket; there is at least one. -/
def readElements (fuel : Nat) (input : List Char) : Option (List Json × List Char) :=
  match fuel with
  | 0 => none
  | fuel + 1 =>
      match readValue fuel input with
      | none => none
      | some (first, rest) =>
          match skipSpace rest with
          | ',' :: rest =>
              match readElements fuel rest with
              | none => none
              | some (others, rest) => some (first :: others, rest)
          | ']' :: rest => some ([first], rest)
          | _ => none

/-- The members of an object up to its closing brace; there is at least one. -/
def readMembers (fuel : Nat) (input : List Char) :
    Option (List (Option String × Json) × List Char) :=
  match fuel with
  | 0 => none
  | fuel + 1 =>
      match skipSpace input with
      | '\x22' :: rest =>
          match readString (rest.length + 1) (some []) rest with
          | none => none
          | some (name, rest) =>
              match skipSpace rest with
              | ':' :: rest =>
                  match readValue fuel rest with
                  | none => none
                  | some (value, rest) =>
                      match skipSpace rest with
                      | ',' :: rest =>
                          match readMembers fuel rest with
                          | none => none
                          | some (others, rest) => some ((name, value) :: others, rest)
                      | '\x7d' :: rest => some ([(name, value)], rest)
                      | _ => none
              | _ => none
      | _ => none

end

/-- The value of a text. Each character is the start of at most three nested
parts, which bounds the depth of the reading. -/
def parse? (source : String) : Option Json :=
  let chars := source.toList
  match readValue (3 * chars.length + 3) chars with
  | some (value, rest) => if (skipSpace rest).isEmpty then some value else none
  | none => none

end ScrapeRelay.Json
