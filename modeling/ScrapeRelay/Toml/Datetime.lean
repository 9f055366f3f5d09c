import ScrapeRelay.Text.Decimal
import ScrapeRelay.Toml

/-!
# Dates and times

Dates, times and offsets as they stand in a document, and as the text of a table
that stands for one. A reader takes characters and returns the normal form of what
it read with the characters that are left.
-/

namespace ScrapeRelay.Toml

open ScrapeRelay.Text

/-- How a part that need not be there was read. -/
inductive Part (α : Type) where
  | absent
  | broken
  | present (value : α) (rest : List Char)

def twoDigits? (low high : Nat) : List Char → Option (Nat × List Char)
  | a :: b :: rest =>
      if isDigit a && isDigit b then
        let value := numeral [a, b]
        if low ≤ value && value ≤ high then some (value, rest) else none
      else none
  | _ => none

def daysIn (year month : Nat) : Nat :=
  if month = 2 then
    if year % 4 = 0 && (year % 100 ≠ 0 || year % 400 = 0) then 29 else 28
  else if month = 4 || month = 6 || month = 9 || month = 11 then 30
  else 31

def padded (width value : Nat) : String :=
  let digits := Nat.toDigits 10 value
  String.ofList (List.replicate (width - digits.length) '0' ++ digits)

/-- A date, in its normal form. A text that starts with four digits and a hyphen
is a date or nothing. -/
def datePart : List Char → Part String
  | a :: b :: c :: d :: '-' :: rest =>
      if [a, b, c, d].all isDigit then
        let year := numeral [a, b, c, d]
        match twoDigits? 1 12 rest with
        | some (month, '-' :: rest) =>
            match twoDigits? 1 31 rest with
            | some (day, rest) =>
                if day ≤ daysIn year month then
                  .present (padded 4 year ++ "-" ++ padded 2 month ++ "-" ++ padded 2 day) rest
                else .broken
            | none => .broken
        | _ => .broken
      else .absent
  | _ => .absent

/-- The digits of a fraction of a second: nine at most count, and zeros at the
end do not. -/
def fractionDigits (digits : List Char) : String :=
  let kept := ((digits.take 9).reverse.dropWhile (· == '0')).reverse
  if kept.isEmpty then "" else String.ofList ('.' :: kept)

/-- A time whose hour goes up to a given one, in its normal form. A text that starts
with two digits and a colon is a time or nothing. -/
def timePart (lastHour : Nat) (input : List Char) : Part String :=
  match input with
  | a :: b :: ':' :: rest =>
      if isDigit a && isDigit b then
        match twoDigits? 0 lastHour [a, b], twoDigits? 0 59 rest with
        | some (hour, _), some (minute, ':' :: rest) =>
            match twoDigits? 0 60 rest with
            | some (second, rest) =>
                let whole := padded 2 hour ++ ":" ++ padded 2 minute ++ ":" ++ padded 2 second
                match rest with
                | '.' :: c :: after =>
                    if isDigit c then
                      let digits := (c :: after).takeWhile isDigit
                      .present (whole ++ fractionDigits digits) ((c :: after).dropWhile isDigit)
                    else .broken
                | '.' :: [] => .broken
                | rest => .present whole rest
            | none => .broken
        | _, _ => .broken
      else .absent
  | _ => .absent

def offsetPart : List Char → Part String
  | 'Z' :: rest => .present "Z" rest
  | 'z' :: rest => .present "Z" rest
  | sign :: rest =>
      if sign = '+' || sign = '-' then
        match twoDigits? 0 23 rest with
        | some (hour, ':' :: rest) =>
            match twoDigits? 0 59 rest with
            | some (minute, rest) =>
                let mark := if sign = '-' && (hour ≠ 0 || minute ≠ 0) then "-" else "+"
                .present (mark ++ padded 2 hour ++ ":" ++ padded 2 minute) rest
            | none => .broken
        | _ => .broken
      else .absent
  | [] => .absent

def datetimePart (input : List Char) : Part Toml :=
  match datePart input with
  | .broken => .broken
  | .absent =>
      match timePart 23 input with
      | .broken => .broken
      | .absent => .absent
      | .present time rest => .present (.datetime time) rest
  | .present date rest =>
      match rest with
      | mark :: after =>
          if mark = 'T' || mark = 't' || mark = ' ' then
            match timePart 23 after with
            | .broken => .broken
            | .absent => .present (.datetime date) rest
            | .present time after =>
                match offsetPart after with
                | .broken => .broken
                | .absent => .present (.datetime (date ++ "T" ++ time)) after
                | .present offset after =>
                    .present (.datetime (date ++ "T" ++ time ++ offset)) after
          else .present (.datetime date) rest
      | [] => .present (.datetime date) []

/-- The offset that ends a text, at most a day either way and minute by minute. -/
def offset? : List Char → Option String
  | [] => some ""
  | ['Z'] => some "Z"
  | ['z'] => some "Z"
  | sign :: rest =>
      if sign = '+' || sign = '-' then
        match twoDigits? 0 99 rest with
        | some (hours, ':' :: rest) =>
            match twoDigits? 0 99 rest with
            | some (minutes, []) =>
                let total := hours * 60 + minutes
                let mark := if sign = '-' && total ≠ 0 then "-" else "+"
                if total ≤ 24 * 60 then
                  some (mark ++ padded 2 (total / 60) ++ ":" ++ padded 2 (total % 60))
                else none
            | _ => none
        | _ => none
      else none

/-- The date or time that a whole text writes. It is read more freely than in a
document: the hour may be 24, and the minutes of an offset may be more than 59. -/
def datetime? (text : String) : Option String :=
  match datePart text.toList with
  | .broken => none
  | .absent =>
      match timePart 24 text.toList with
      | .present time [] => some time
      | _ => none
  | .present date [] => some date
  | .present date (mark :: rest) =>
      if mark = 'T' || mark = 't' || mark = ' ' then
        match timePart 24 rest with
        | .present time rest => (offset? rest).map (fun offset => date ++ "T" ++ time ++ offset)
        | _ => none
      else none

end ScrapeRelay.Toml
