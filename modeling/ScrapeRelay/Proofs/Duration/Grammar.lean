import ScrapeRelay.Proofs.Duration.Notation
import ScrapeRelay.Proofs.Text.Trimming

/-!
# What reads as a duration

A written duration is a numeral, which may have a plus sign, and a unit, which blanks may set apart.
A text is read exactly if it is one once the blanks at its ends are gone, in no more than one way,
and unless its number or its milliseconds do not fit 64 bits (`parse_follows_grammar`).
-/

namespace ScrapeRelay

namespace Text

variable {text : List Char} {value : Nat}

theorem digits?_eq_some_iff :
    digits? text = some value ↔
      text ≠ [] ∧ (∀ c ∈ text, c.isDigit = true) ∧ Nat.ofDigitChars 10 text 0 = value := by
  have all : text.all isDigit = true ↔ ∀ c ∈ text, c.isDigit = true := by simp [isDigit_eq]
  rw [digits?, ← all, ← numeral_eq]
  by_cases filled : text = []
  · simp [filled]
  · by_cases decimal : text.all isDigit = true
    · simp only [List.isEmpty_iff, if_neg filled, if_pos decimal, Option.some.injEq]
      simp [filled, decimal]
    · simp only [List.isEmpty_iff, if_neg filled, if_neg decimal]
      simp [decimal]

/-- A numeral that may have a plus sign in front. -/
def signed (hasPlus : Bool) (digits : List Char) : List Char :=
  if hasPlus then '+' :: digits else digits

/-- No digit is a plus sign. -/
theorem ne_plus_cons {digits rest : List Char} (decimal : ∀ c ∈ digits, c.isDigit = true) :
    digits ≠ '+' :: rest := by
  rintro rfl
  exact absurd (decimal '+' List.mem_cons_self) (by decide)

theorem signed_inj {hasPlus otherPlus : Bool} {digits others : List Char}
    (digits_decimal : ∀ c ∈ digits, c.isDigit = true)
    (others_decimal : ∀ c ∈ others, c.isDigit = true)
    (same : signed hasPlus digits = signed otherPlus others) :
    hasPlus = otherPlus ∧ digits = others := by
  cases hasPlus <;> cases otherPlus
  · exact ⟨rfl, same⟩
  · exact absurd same (ne_plus_cons digits_decimal)
  · exact absurd same.symm (ne_plus_cons others_decimal)
  · exact ⟨rfl, (List.cons.inj same).2⟩

theorem word?_plus (digits : List Char) :
    word? ('+' :: digits) = (digits? digits).filter (· < wordLimit) := by
  simp only [word?]
  cases digits? digits <;> simp [Option.filter]

theorem word?_plusless (plusless : ∀ rest, text ≠ '+' :: rest) :
    word? text = (digits? text).filter (· < wordLimit) := by
  unfold word?
  split
  · exact absurd rfl (plusless _)
  · dsimp only
    cases digits? text <;> simp [Option.filter]

theorem word?_eq_some_iff :
    word? text = some value ↔
      ∃ hasPlus digits, text = signed hasPlus digits ∧ digits ≠ [] ∧
        (∀ c ∈ digits, c.isDigit = true) ∧ Nat.ofDigitChars 10 digits 0 = value ∧
        value < UInt64.size := by
  have limited (digits : List Char) :
      (digits? digits).filter (· < wordLimit) = some value ↔ digits ≠ [] ∧
        (∀ c ∈ digits, c.isDigit = true) ∧ Nat.ofDigitChars 10 digits 0 = value ∧
        value < UInt64.size := by
    rw [Option.filter_eq_some_iff, digits?_eq_some_iff, decide_eq_true_eq, and_assoc, and_assoc]
    rfl
  constructor
  · intro read
    by_cases plus : ∃ rest, text = '+' :: rest
    · obtain ⟨rest, rfl⟩ := plus
      rw [word?_plus] at read
      exact ⟨true, rest, rfl, (limited rest).mp read⟩
    · rw [word?_plusless (not_exists.mp plus)] at read
      exact ⟨false, text, rfl, (limited text).mp read⟩
  · rintro ⟨hasPlus, digits, rfl, filled, decimal, same, fits⟩
    have read := (limited digits).mpr ⟨filled, decimal, same, fits⟩
    cases hasPlus with
    | true => exact (word?_plus digits).trans read
    | false => exact (word?_plusless fun _ => ne_plus_cons decimal).trans read

end Text

namespace Duration

open ScrapeRelay.Text

inductive TimeUnit where
  | milliseconds
  | seconds
  | minutes
  | hours
deriving DecidableEq

namespace TimeUnit

def suffix : TimeUnit → List Char
  | .milliseconds => ['m', 's']
  | .seconds => ['s']
  | .minutes => ['m']
  | .hours => ['h']

def millis : TimeUnit → Nat
  | .milliseconds => 1
  | .seconds => 1000
  | .minutes => 60000
  | .hours => 3600000

theorem millis_injective {unit other : TimeUnit} (same : unit.millis = other.millis) :
    unit = other := by
  cases unit <;> cases other <;> simp [millis] at same <;> rfl

end TimeUnit

/-- The parts of a written duration. -/
structure Written where
  hasPlus : Bool
  digits : List Char
  gap : List Char
  unit : TimeUnit
  filled : digits ≠ []
  decimal : ∀ c ∈ digits, c.isDigit = true
  blank : ∀ c ∈ gap, isBlank c = true

namespace Written

variable {written other : Written}

def numeral (written : Written) : List Char := signed written.hasPlus written.digits

def characters (written : Written) : List Char :=
  written.numeral ++ written.gap ++ written.unit.suffix

def count (written : Written) : Nat := Nat.ofDigitChars 10 written.digits 0

def millis (written : Written) : Nat := written.count * written.unit.millis

/-- A written duration whose number and whose milliseconds fit 64 bits. -/
def Fits (written : Written) : Prop := written.count < UInt64.size ∧ written.millis < UInt64.size

/-- No character of a numeral is a blank or the first one of a unit. -/
theorem numeral_solid (written : Written) :
    ∀ c ∈ written.numeral, isBlank c = false ∧ c ≠ 'm' := by
  have digit : ∀ c ∈ written.digits, isBlank c = false ∧ c ≠ 'm' := by
    intro c member
    have digit := written.decimal c member
    refine ⟨isBlank_of_isDigit (by rwa [isDigit_eq]), ?_⟩
    rintro rfl
    exact absurd digit (by decide)
  intro c member
  unfold numeral signed at member
  split at member
  · obtain rfl | member := List.mem_cons.mp member
    · decide
    · exact digit c member
  · exact digit c member

theorem numeral_first (written : Written) : ∀ c ∈ written.numeral.head?, isBlank c = false := by
  intro c first
  exact (written.numeral_solid c (List.mem_of_head? first)).1

theorem trimChars_numeral (written : Written) :
    trimChars (written.numeral ++ written.gap) = written.numeral := by
  have nothing : ∀ c ∈ ([] : List Char), isBlank c = true := by simp
  refine trimChars_surrounded nothing written.blank written.numeral_first fun c last => ?_
  exact (written.numeral_solid c (List.mem_of_getLast? last)).1

theorem word?_numeral (written : Written) (fits : written.count < UInt64.size) :
    word? written.numeral = some written.count :=
  word?_eq_some_iff.mpr
    ⟨written.hasPlus, written.digits, rfl, written.filled, written.decimal, rfl, fits⟩

/-- Only the unit of milliseconds has an `m` before its `s`, so it is told from the unit of
seconds. -/
theorem splitUnit?_characters (written : Written) :
    splitUnit? written.characters.reverse =
      some (written.unit.millis, (written.numeral ++ written.gap).reverse) := by
  have apart : ∀ c ∈ written.numeral ++ written.gap, c ≠ 'm' := by
    intro c member
    obtain numeral | gap := List.mem_append.mp member
    · exact (written.numeral_solid c numeral).2
    · rintro rfl
      exact absurd (written.blank 'm' gap) (by decide)
  unfold characters
  generalize written.numeral ++ written.gap = front at apart
  rw [List.reverse_append]
  cases written.unit with
  | seconds =>
      cases shape : front.reverse with
      | nil => rfl
      | cons c rest =>
          have member : c ∈ front := List.mem_reverse.mp (shape ▸ List.mem_cons_self)
          simp [TimeUnit.suffix, TimeUnit.millis, splitUnit?, apart c member]
  | _ => rfl

/-- A text is a written duration in no more than one way. -/
theorem characters_injective (same : written.characters = other.characters) : written = other := by
  have split := congrArg (fun text => splitUnit? text.reverse) same
  simp only [splitUnit?_characters, Option.some.injEq, Prod.mk.injEq, List.reverse_inj] at split
  obtain ⟨units, fronts⟩ := split
  have numerals : written.numeral = other.numeral := by
    rw [← written.trimChars_numeral, fronts, other.trimChars_numeral]
  have gaps : written.gap = other.gap := by
    rw [numerals] at fronts
    exact List.append_cancel_left fronts
  obtain ⟨plus, digits⟩ := signed_inj written.decimal other.decimal numerals
  cases written
  cases other
  simp only [mk.injEq]
  exact ⟨plus, digits, gaps, TimeUnit.millis_injective units⟩

end Written

variable {text : String} {core : List Char} {count : Nat}

/-- A unit that is split off stood at the end. -/
theorem suffix_of_splitUnit? {unit : Nat} {front reversed : List Char}
    (split : splitUnit? reversed = some (unit, front)) :
    ∃ found : TimeUnit, unit = found.millis ∧ reversed.reverse = front.reverse ++ found.suffix := by
  unfold splitUnit? at split
  split at split
  · obtain ⟨rfl, rfl⟩ := Prod.mk.inj (Option.some.inj split)
    exact ⟨.milliseconds, rfl, by simp [TimeUnit.suffix]⟩
  · obtain ⟨rfl, rfl⟩ := Prod.mk.inj (Option.some.inj split)
    exact ⟨.seconds, rfl, by simp [TimeUnit.suffix]⟩
  · obtain ⟨rfl, rfl⟩ := Prod.mk.inj (Option.some.inj split)
    exact ⟨.minutes, rfl, by simp [TimeUnit.suffix]⟩
  · obtain ⟨rfl, rfl⟩ := Prod.mk.inj (Option.some.inj split)
    exact ⟨.hours, rfl, by simp [TimeUnit.suffix]⟩
  · cases split

theorem millis?_characters (written : Written) (fits : written.Fits) :
    millis? written.characters = some written.millis := by
  have limit : written.count * written.unit.millis < wordLimit := fits.2
  simp only [millis?, written.splitUnit?_characters, List.reverse_reverse,
    written.trimChars_numeral, written.word?_numeral fits.1, if_pos limit, Written.millis]

/-- A text that does not begin with a blank and is read is a written duration. -/
theorem written_of_millis? (first : ∀ c ∈ core.head?, isBlank c = false)
    (read : millis? core = some count) :
    ∃ written : Written, core = written.characters ∧ written.Fits ∧ written.millis = count := by
  unfold millis? at read
  split at read
  · cases read
  rename_i scale front split
  split at read
  · cases read
  rename_i number word
  split at read
  · rename_i limit
    obtain rfl := Option.some.inj read
    obtain ⟨unit, rfl, parts⟩ := suffix_of_splitUnit? split
    rw [List.reverse_reverse] at parts
    obtain ⟨hasPlus, digits, numeral, filled, decimal, rfl, fits⟩ := word?_eq_some_iff.mp word
    obtain ⟨before, gap, surrounded, before_blank, gap_blank⟩ :=
      (trims_trimChars front.reverse).surrounded
    -- A blank in front of the numeral would be the first character of the text.
    have nothing : before = [] := by
      cases before with
      | nil => rfl
      | cons c rest =>
          have solid := first c (by rw [parts, surrounded]; rfl)
          rw [before_blank c List.mem_cons_self] at solid
          cases solid
    rw [nothing, List.nil_append, numeral] at surrounded
    rw [surrounded] at parts
    exact ⟨⟨hasPlus, digits, gap, unit, filled, decimal, gap_blank⟩, parts, ⟨fits, limit⟩, rfl⟩
  · cases read

theorem parse_eq_ok_iff {duration : Duration} :
    parse text = .ok duration ↔
      ∃ written : Written, trimChars text.toList = written.characters ∧ written.Fits ∧
        duration = .ofMillis written.millis := by
  constructor
  · intro read
    unfold parse at read
    split at read
    · rename_i count found
      obtain rfl := Except.ok.inj read
      obtain ⟨written, same, fits, rfl⟩ :=
        written_of_millis? (trims_trimChars text.toList).first found
      exact ⟨written, same, fits, rfl⟩
    · cases read
  · rintro ⟨written, same, fits, rfl⟩
    rw [parse, same, millis?_characters written fits]

theorem parse_eq_error_iff {rest : String} :
    parse text = .error rest ↔
      rest = trim text ∧ ∀ written : Written, trimChars text.toList = written.characters →
        ¬ written.Fits := by
  constructor
  · intro refused
    constructor
    · unfold parse at refused
      split at refused
      · cases refused
      · exact (Except.error.inj refused).symm
    · intro written same fits
      have read := parse_eq_ok_iff.mpr ⟨written, same, fits, rfl⟩
      cases refused.symm.trans read
  · rintro ⟨rfl, unfit⟩
    unfold parse
    split
    · rename_i count found
      obtain ⟨written, same, fits, _⟩ :=
        written_of_millis? (trims_trimChars text.toList).first found
      exact absurd fits (unfit written same)
    · rfl

/-- A text has one part with nothing but blanks around it and a blank at neither end. The text is
read as a duration exactly if this part is an optional plus sign, decimal digits, blanks that may be
missing and a unit, where the number and the number of milliseconds fit 64 bits, and the duration
has exactly so many milliseconds. The part is such a sequence in no more than one way. Any other
text is refused, and the part is returned. -/
theorem parse_follows_grammar (text : String) :
    ∃ core, Trims text.toList core ∧ (∀ other, Trims text.toList other → other = core) ∧
      (∀ duration, parse text = .ok duration ↔
        ∃ written : Written, core = written.characters ∧ written.count < UInt64.size ∧
          written.count * written.unit.millis < UInt64.size ∧
          duration = .ofMillis (written.count * written.unit.millis)) ∧
      (∀ written other : Written, core = written.characters → core = other.characters →
        written = other) ∧
      ∀ rest, parse text = .error rest ↔
        rest = String.ofList core ∧ ∀ written : Written, core = written.characters →
          ¬ (written.count < UInt64.size ∧ written.count * written.unit.millis < UInt64.size) := by
  refine ⟨trimChars text.toList, trims_trimChars _, fun other => trims_iff.mp, ?_, ?_, ?_⟩
  · intro duration
    rw [parse_eq_ok_iff]
    simp only [Written.Fits, Written.millis, and_assoc]
  · intro written other same again
    exact Written.characters_injective (same.symm.trans again)
  · intro rest
    exact parse_eq_error_iff

example : parse " +090\u2003m " = .ok (.ofMillis 5400000) := by decide +kernel

example : parse " 18446744073709552s" = .error "18446744073709552s" := by decide +kernel

end Duration

end ScrapeRelay
