import Mathlib.Data.List.TakeWhile
import ScrapeRelay.Duration.Notation
import ScrapeRelay.Proofs.Text.Numerals

/-!
# Written durations are read back

A duration of whole milliseconds that fit 64 bits is written as a numeral and a unit, without
blanks, and reading takes the two apart again (`parse_render`). Reading gives no other durations
(`isExpressible_of_parse`).
-/

namespace ScrapeRelay

namespace Text

variable {text : List Char} {value : Nat}

theorem isBlank_of_isDigit {c : Char} (digit : isDigit c = true) : isBlank c = false := by
  simp only [isDigit, Bool.and_eq_true, decide_eq_true_eq, Char.le_def,
    UInt32.le_iff_toNat_le] at digit
  have code : 48 ≤ c.toNat ∧ c.toNat ≤ 57 := digit
  simp only [isBlank, Bool.or_eq_false_iff, Bool.and_eq_false_iff, beq_eq_false_iff_ne,
    decide_eq_false_iff_not]
  omega

theorem trimChars_of_solid (solid : ∀ c ∈ text, isBlank c = false) : trimChars text = text := by
  have front : text.dropWhile isBlank = text :=
    List.dropWhile_eq_self_iff.mpr fun filled => by simp [solid _ (List.getElem_mem filled)]
  have back : text.reverse.dropWhile isBlank = text.reverse :=
    List.dropWhile_eq_self_iff.mpr fun filled => by
      rw [solid _ (List.mem_reverse.mp (List.getElem_mem filled))]
      exact Bool.false_ne_true
  rw [trimChars, front, back, List.reverse_reverse]

end Text

namespace Duration

open ScrapeRelay.Text

variable {duration : Duration} {count value unit : Nat} {suffix : List Char}

/-- A duration of whole milliseconds that fit 64 bits. -/
def IsExpressible (duration : Duration) : Prop :=
  ∃ count, count < wordLimit ∧ duration = .ofMillis count

theorem millis_ofMillis (count : Nat) : (ofMillis count).millis = count :=
  Nat.mul_div_cancel count (by decide)

/-- A count of a unit that divides it is read back if its unit is told from its numeral. -/
theorem parse_scaled (divides : unit ∣ count) (fits : count < wordLimit)
    (solid : ∀ c ∈ suffix, isBlank c = false)
    (split : splitUnit? (suffix.reverse ++ (Nat.toDigits 10 (count / unit)).reverse) =
      some (unit, (Nat.toDigits 10 (count / unit)).reverse)) :
    parse (decimal (count / unit) ++ String.ofList suffix) = .ok (.ofMillis count) := by
  have characters : (decimal (count / unit) ++ String.ofList suffix).toList =
      Nat.toDigits 10 (count / unit) ++ suffix := by simp [decimal]
  have digits : ∀ c ∈ Nat.toDigits 10 (count / unit), isBlank c = false :=
    fun c member => isBlank_of_isDigit (isDigit_of_mem_toDigits member)
  have trimmed : trimChars (Nat.toDigits 10 (count / unit) ++ suffix) =
      Nat.toDigits 10 (count / unit) ++ suffix :=
    trimChars_of_solid fun c member => (List.mem_append.mp member).elim (digits c) (solid c)
  have numeral : word? (Nat.toDigits 10 (count / unit)) = some (count / unit) :=
    word?_toDigits (Nat.lt_of_le_of_lt (Nat.div_le_self count unit) fits)
  have read : millis? (Nat.toDigits 10 (count / unit) ++ suffix) = some count := by
    simp only [millis?, List.reverse_append, split, List.reverse_reverse,
      trimChars_of_solid digits, numeral, Nat.div_mul_cancel divides, if_pos fits]
  rw [parse, characters, trimmed, read]

/-- The character before the unit of seconds is a digit, so it is no part of the unit. -/
theorem splitUnit?_seconds (value : Nat) :
    splitUnit? ('s' :: (Nat.toDigits 10 value).reverse) =
      some (1000, (Nat.toDigits 10 value).reverse) := by
  cases shape : (Nat.toDigits 10 value).reverse with
  | nil => rfl
  | cons last rest =>
      have member : last ∈ Nat.toDigits 10 value :=
        List.mem_reverse.mp (shape ▸ List.mem_cons_self)
      have digit : isDigit last = true := isDigit_of_mem_toDigits member
      have apart : last ≠ 'm' := by
        rintro rfl
        simp [isDigit] at digit
      simp [splitUnit?, apart]

/-- What is written is read back. -/
theorem parse_render (expressible : duration.IsExpressible) :
    parse duration.render = .ok duration := by
  obtain ⟨count, fits, rfl⟩ := expressible
  have divides {unit : Nat} (whole : count % unit = 0) : unit ∣ count :=
    Nat.dvd_of_mod_eq_zero whole
  simp only [render, millis_ofMillis]
  split
  · rename_i hours
    have whole : count % 3600000 = 0 := by simpa using (Bool.and_eq_true_iff.mp hours).1
    exact parse_scaled (divides whole) fits (List.forall_mem_singleton.mpr rfl) rfl
  · split
    · rename_i minutes
      have whole : count % 60000 = 0 := by simpa using (Bool.and_eq_true_iff.mp minutes).1
      exact parse_scaled (divides whole) fits (List.forall_mem_singleton.mpr rfl) rfl
    · split
      · rename_i whole
        exact parse_scaled (divides whole) fits (List.forall_mem_singleton.mpr rfl)
          (splitUnit?_seconds _)
      · have solid : ∀ c ∈ ['m', 's'], isBlank c = false :=
          List.forall_mem_cons.mpr ⟨rfl, List.forall_mem_singleton.mpr rfl⟩
        have read := parse_scaled (Nat.one_dvd count) fits solid rfl
        rwa [Nat.div_one] at read

/-- Reading gives durations of whole milliseconds that fit 64 bits. -/
theorem isExpressible_of_parse {text : String} (read : parse text = .ok duration) :
    duration.IsExpressible := by
  unfold parse at read
  split at read
  · rename_i count found
    obtain rfl := Except.ok.inj read
    refine ⟨count, ?_, rfl⟩
    unfold millis? at found
    split at found
    · cases found
    · split at found
      · cases found
      · split at found
        · rename_i fits
          rw [← Option.some.inj found]
          exact fits
        · cases found
  · cases read

end Duration

end ScrapeRelay
