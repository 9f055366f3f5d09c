import ScrapeRelay.Text.Decimal
import ScrapeRelay.Toml.Scalar

/-!
# TOML lexemes

Blanks, line ends, comments, strings and keys. A reader takes characters and
returns what it read with the characters that are left.
-/

namespace ScrapeRelay.Toml

def isSpace (c : Char) : Bool := c = ' ' || c = '\t'

def skipSpace (input : List Char) : List Char := input.dropWhile isSpace

def isCommentChar (c : Char) : Bool := c = '\t' || (0x20 ≤ c.toNat && c.toNat ≠ 0x7F)

def newline? : List Char → Option (List Char)
  | '\n' :: rest => some rest
  | '\r' :: '\n' :: rest => some rest
  | _ => none

def skipComment : List Char → List Char
  | '#' :: rest => rest.dropWhile isCommentChar
  | input => input

/-- What follows a line after blanks and a comment: the next line, or nothing. -/
def lineEnd? (input : List Char) : Option (List Char) :=
  match skipComment (skipSpace input) with
  | [] => some []
  | rest => newline? rest

def skipLines (fuel : Nat) (input : List Char) : List Char :=
  match fuel with
  | 0 => input
  | fuel + 1 =>
      match skipSpace input with
      | '#' :: rest => skipLines fuel (rest.dropWhile isCommentChar)
      | rest =>
          match newline? rest with
          | some rest => skipLines fuel rest
          | none => rest

def hexNumber? (count : Nat) (input : List Char) : Option (Nat × List Char) :=
  let digits := input.take count
  if digits.length = count && digits.all isHexDigit then
    some (numeralIn 16 digits, input.drop count)
  else none

def character? (code : Nat) : Option Char :=
  if code < 0xD800 || (0xE000 ≤ code && code ≤ 0x10FFFF) then some (Char.ofNat code) else none

def escape? : List Char → Option (Char × List Char)
  | [] => none
  | c :: rest =>
      if c = 'b' then some ('\x08', rest)
      else if c = 'f' then some ('\x0c', rest)
      else if c = 'n' then some ('\n', rest)
      else if c = 'r' then some ('\r', rest)
      else if c = 't' then some ('\t', rest)
      else if c = '\x22' then some ('\x22', rest)
      else if c = '\\' then some ('\\', rest)
      else if c = 'u' || c = 'U' then
        match hexNumber? (if c = 'u' then 4 else 8) rest with
        | some (code, rest) => (character? code).map (fun value => (value, rest))
        | none => none
      else none

def isPlain (quoteMark : Char) (escapes : Bool) (c : Char) : Bool :=
  isCommentChar c && c ≠ quoteMark && !(escapes && c = '\\')

/-- The rest of a one-line string after its opening quote. The characters read so
far are given in reverse. -/
def lineString? (quoteMark : Char) (escapes : Bool) (fuel : Nat) (done : List Char)
    (input : List Char) : Option (List Char × List Char) :=
  match fuel, input with
  | 0, _ => none
  | _, [] => none
  | fuel + 1, c :: rest =>
      if c = quoteMark then some (done.reverse, rest)
      else if escapes && c = '\\' then
        match escape? rest with
        | some (value, rest) => lineString? quoteMark escapes fuel (value :: done) rest
        | none => none
      else if isPlain quoteMark escapes c then
        lineString? quoteMark escapes fuel (c :: done) rest
      else none

def skipBlankLines (fuel : Nat) (input : List Char) : List Char :=
  match fuel with
  | 0 => input
  | fuel + 1 =>
      match newline? (skipSpace input) with
      | some rest => skipBlankLines fuel rest
      | none => skipSpace input

/-- The rest of a string of several lines after its opening quotes. Three quotes
end it, and one or two more in front of them belong to it. -/
def blockString? (quoteMark : Char) (escapes : Bool) (fuel : Nat) (done : List Char)
    (input : List Char) : Option (List Char × List Char) :=
  match fuel, input with
  | 0, _ => none
  | _, [] => none
  | fuel + 1, c :: rest =>
      if c = quoteMark then
        let run := (c :: rest).takeWhile (· = quoteMark)
        if run.length < 3 then blockString? quoteMark escapes fuel (c :: done) rest
        else
          let extra := Nat.min 2 (run.length - 3)
          some ((List.replicate extra quoteMark ++ done).reverse, (c :: rest).drop (extra + 3))
      else if escapes && c = '\\' then
        match newline? (skipSpace rest) with
        | some rest =>
            blockString? quoteMark escapes fuel done (skipBlankLines rest.length rest)
        | none =>
            match escape? rest with
            | some (value, rest) => blockString? quoteMark escapes fuel (value :: done) rest
            | none => none
      else
        match newline? (c :: rest) with
        | some rest => blockString? quoteMark escapes fuel ('\n' :: done) rest
        | none =>
            if isPlain quoteMark escapes c then
              blockString? quoteMark escapes fuel (c :: done) rest
            else none

def string? (input : List Char) : Option (String × List Char) :=
  let finish (result : Option (List Char × List Char)) : Option (String × List Char) :=
    result.map (fun found => (String.ofList found.1, found.2))
  match input with
  | a :: b :: c :: rest =>
      if (a = '\x22' || a = '\x27') && b = a && c = a then
        let body := (newline? rest).getD rest
        finish (blockString? a (a = '\x22') (body.length + 1) [] body)
      else if a = '\x22' || a = '\x27' then
        finish (lineString? a (a = '\x22') (input.length + 1) [] (b :: c :: rest))
      else none
  | a :: rest =>
      if a = '\x22' || a = '\x27' then
        finish (lineString? a (a = '\x22') (input.length + 1) [] rest)
      else none
  | [] => none

def isBareKeyChar (c : Char) : Bool :=
  c.isAlphanum || c = '-' || c = '_'

/-- One part of a key. A quoted part stands on one line. -/
def simpleKey? (input : List Char) : Option (String × List Char) :=
  match input with
  | [] => none
  | c :: rest =>
      if c = '\x22' || c = '\x27' then
        (lineString? c (c = '\x22') (rest.length + 1) [] rest).map
          (fun found => (String.ofList found.1, found.2))
      else
        let bare := input.takeWhile isBareKeyChar
        if bare.isEmpty then none
        else some (String.ofList bare, input.dropWhile isBareKeyChar)

/-- A key of one or more parts with points between them, and the blanks around. -/
def key? (fuel : Nat) (input : List Char) : Option (List String × List Char) :=
  match fuel with
  | 0 => none
  | fuel + 1 =>
      match simpleKey? (skipSpace input) with
      | none => none
      | some (part, rest) =>
          match skipSpace rest with
          | '.' :: rest =>
              match key? fuel rest with
              | some (parts, rest) => some (part :: parts, rest)
              | none => none
          | rest => some ([part], rest)

end ScrapeRelay.Toml
