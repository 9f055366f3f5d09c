import ScrapeRelay.Duration
import ScrapeRelay.Text.Blank
import ScrapeRelay.Text.Decimal

/-!
# Written durations

A configured duration is a whole number followed by a unit: `ms`, `s`, `m` or
`h`. Reading allows blanks around the whole and before the unit, and a plus
sign. Writing takes the largest unit that divides the duration.
-/

namespace ScrapeRelay.Duration

open ScrapeRelay.Text

/-- The unit at the end of a text, in milliseconds, and what stands before it.
The text is given from its last character on, and so is the part before. -/
def splitUnit? : List Char → Option (Nat × List Char)
  | 's' :: 'm' :: front => some (1, front)
  | 's' :: front => some (1000, front)
  | 'm' :: front => some (60000, front)
  | 'h' :: front => some (3600000, front)
  | _ => none

/-- The number of milliseconds that trimmed text writes, if it fits 64 bits. -/
def millis? (text : List Char) : Option Nat :=
  match splitUnit? text.reverse with
  | none => none
  | some (unit, front) =>
      match word? (trimChars front.reverse) with
      | none => none
      | some count => if count * unit < wordLimit then some (count * unit) else none

/-- Read a duration. A text that writes none is returned without the blanks at
its ends. -/
def parse (text : String) : Except String Duration :=
  match millis? (trimChars text.toList) with
  | some count => .ok (ofMillis count)
  | none => .error (trim text)

/-- Write the whole milliseconds of a duration in the largest unit that divides
them. -/
def render (duration : Duration) : String :=
  let count := duration.millis
  if count % 3600000 = 0 && count ≠ 0 then decimal (count / 3600000) ++ "h"
  else if count % 60000 = 0 && count ≠ 0 then decimal (count / 60000) ++ "m"
  else if count % 1000 = 0 then decimal (count / 1000) ++ "s"
  else decimal count ++ "ms"

/-- A number of `width` digits after the point without the zeros at its end;
nothing at all for zero. -/
def fractionText (width value : Nat) : String :=
  let digits := (decimal value).toList
  let padded := List.replicate (width - digits.length) '0' ++ digits
  let kept := (padded.reverse.dropWhile (· == '0')).reverse
  if kept.isEmpty then "" else String.ofList ('.' :: kept)

/-- Show a duration exactly, in the largest of seconds, milliseconds,
microseconds and nanoseconds of which it has at least one. -/
def describe (duration : Duration) : String :=
  let n := duration.nanos
  if 1000000000 ≤ n then
    decimal (n / 1000000000) ++ fractionText 9 (n % 1000000000) ++ "s"
  else if 1000000 ≤ n then decimal (n / 1000000) ++ fractionText 6 (n % 1000000) ++ "ms"
  else if 1000 ≤ n then decimal (n / 1000) ++ fractionText 3 (n % 1000) ++ "µs"
  else decimal n ++ "ns"

end ScrapeRelay.Duration
