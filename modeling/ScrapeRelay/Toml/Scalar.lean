import ScrapeRelay.Toml.Datetime

/-!
# TOML numbers, dates and times

Readers for the scalars that start with a digit or a sign, and for the words of
the special floating-point values. A reader takes characters and returns a value
with the characters that are left.
-/

namespace ScrapeRelay.Toml

open ScrapeRelay.Text

/-- Digits at the front, where an underscore may stand between two of them. The
digits read so far are given in reverse; at least one of them must be there. -/
def spanGrouped (isDigitOf : Char → Bool) (done : List Char) : List Char → List Char × List Char
  | '_' :: c :: rest =>
      if isDigitOf c then spanGrouped isDigitOf (c :: done) rest
      else (done.reverse, '_' :: c :: rest)
  | c :: rest =>
      if isDigitOf c then spanGrouped isDigitOf (c :: done) rest else (done.reverse, c :: rest)
  | [] => (done.reverse, [])

def grouped? (isDigitOf : Char → Bool) : List Char → Option (List Char × List Char)
  | c :: rest => if isDigitOf c then some (spanGrouped isDigitOf [c] rest) else none
  | [] => none

/-- A sign, if there is one: whether it is a minus. -/
def splitSign : List Char → Bool × List Char
  | '+' :: rest => (false, rest)
  | '-' :: rest => (true, rest)
  | other => (false, other)

/-- The whole part of a decimal number: a single digit, or more of which the first
is not zero. -/
def whole? : List Char → Option (List Char × List Char)
  | '0' :: rest => some (['0'], rest)
  | other => grouped? isDigit other

def anyDigitValue (c : Char) : Nat :=
  if isDigit c then digitValue c
  else if 'a' ≤ c && c ≤ 'f' then c.toNat - 'a'.toNat + 10
  else c.toNat - 'A'.toNat + 10

def isHexDigit (c : Char) : Bool :=
  isDigit c || ('a' ≤ c && c ≤ 'f') || ('A' ≤ c && c ≤ 'F')

def numeralIn (base : Nat) (digits : List Char) : Nat :=
  digits.foldl (fun value digit => value * base + anyDigitValue digit) 0

def fitted? (value : Int) : Option Int64 :=
  if Int64.minValue.toInt ≤ value && value ≤ Int64.maxValue.toInt then some (Int64.ofInt value)
  else none

def basedInteger? (base : Nat) (isDigitOf : Char → Bool) (input : List Char) :
    Option (Toml × List Char) :=
  match grouped? isDigitOf input with
  | none => none
  | some (digits, rest) =>
      (fitted? (Int.ofNat (numeralIn base digits))).map (fun value => (.integer value, rest))

def integer? : List Char → Option (Toml × List Char)
  | '0' :: 'x' :: rest => basedInteger? 16 isHexDigit rest
  | '0' :: 'o' :: rest => basedInteger? 8 (fun c => '0' ≤ c && c ≤ '7') rest
  | '0' :: 'b' :: rest => basedInteger? 2 (fun c => c = '0' || c = '1') rest
  | input =>
      let (negative, unsigned) := splitSign input
      match whole? unsigned with
      | none => none
      | some (digits, rest) =>
          let magnitude := Int.ofNat (numeral digits)
          (fitted? (if negative then -magnitude else magnitude)).map
            (fun value => (.integer value, rest))

def exponentPart : List Char → Part Int
  | e :: rest =>
      if e = 'e' || e = 'E' then
        let (negative, unsigned) := splitSign rest
        match grouped? isDigit unsigned with
        | none => .broken
        | some (digits, rest) =>
            let magnitude := Int.ofNat (numeral digits)
            .present (if negative then -magnitude else magnitude) rest
      else .absent
  | [] => .absent

def fractionPart : List Char → Part (List Char)
  | '.' :: rest =>
      match grouped? isDigit rest with
      | none => .broken
      | some (digits, rest) => .present digits rest
  | _ => .absent

/-- A rounded value. One that overflows upwards is refused. -/
def rounded (negative : Bool) (digits : List Char) (exponent : Int) (rest : List Char) :
    Part Toml :=
  let value := Binary64.ofDecimal negative (numeral digits) exponent
  if value = Binary64.infinity then .broken else .present (.real value) rest

def decimalPart (input : List Char) : Part Toml :=
  let (negative, unsigned) := splitSign input
  match whole? unsigned with
  | none => .absent
  | some (whole, rest) =>
      match fractionPart rest with
      | .broken => .broken
      | .present fraction rest =>
          let digits := whole ++ fraction
          let scale := -Int.ofNat fraction.length
          match exponentPart rest with
          | .broken => .broken
          | .present exponent rest => rounded negative digits (exponent + scale) rest
          | .absent => rounded negative digits scale rest
      | .absent =>
          match exponentPart rest with
          | .broken => .broken
          | .present exponent rest => rounded negative whole exponent rest
          | .absent => .absent

def special? (input : List Char) : Option (Toml × List Char) :=
  let (negative, unsigned) := splitSign input
  let signed (value : Binary64) : Binary64 := if negative then value.neg else value
  match unsigned with
  | 'i' :: 'n' :: 'f' :: rest => some (.real (signed .infinity), rest)
  | 'n' :: 'a' :: 'n' :: rest => some (.real (signed .nan), rest)
  | _ => none

def numeric? (input : List Char) : Option (Toml × List Char) :=
  match datetimePart input with
  | .broken => none
  | .present value rest => some (value, rest)
  | .absent =>
      match decimalPart input with
      | .broken => none
      | .present value rest => some (value, rest)
      | .absent =>
          match special? input with
          | some result => some result
          | none => integer? input

end ScrapeRelay.Toml
