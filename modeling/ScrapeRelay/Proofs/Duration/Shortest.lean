import Mathlib.Data.String.Basic
import ScrapeRelay.Proofs.Duration.Grammar

/-!
# Durations are written as short as they can be read

The whole milliseconds of a duration are written in the coarsest unit that divides them, and no
other text that is read as that many milliseconds is shorter, in characters or in bytes. What is
written is read back as the duration rounded down to the millisecond, unless its milliseconds do not
fit 64 bits, and then it is refused (`render_is_shortest`).
-/

namespace ScrapeRelay

namespace Text

variable {text digits : List Char}

theorem utf8Size_of_isDigit {c : Char} (digit : c.isDigit = true) : c.utf8Size = 1 := by
  obtain ⟨_, code⟩ := digit_code digit
  have ascii : c.val ≤ 0x7f := UInt32.le_iff_toNat_le.mpr (Nat.le_trans code (by decide))
  unfold Char.utf8Size
  exact if_pos ascii

theorem length_trimChars_le (text : List Char) : (trimChars text).length ≤ text.length := by
  obtain ⟨front, back, surrounded, _, _⟩ := (trims_trimChars text).surrounded
  have lengths := congrArg List.length surrounded
  simp only [List.length_append] at lengths
  omega

/-- Every character takes at least one byte. -/
theorem length_le_utf8Len (text : List Char) : text.length ≤ String.utf8Len text := by
  induction text with
  | nil => simp
  | cons c rest ih =>
      have filled := c.utf8Size_pos
      rw [String.utf8Len_cons, List.length_cons]
      omega

theorem utf8Len_of_ascii (ascii : ∀ c ∈ text, c.utf8Size = 1) :
    String.utf8Len text = text.length := by
  induction text with
  | nil => simp
  | cons c rest ih =>
      rw [String.utf8Len_cons, ascii c List.mem_cons_self, List.length_cons,
        ih fun c member => ascii c (List.mem_cons_of_mem _ member)]

end Text

namespace Duration

open ScrapeRelay.Text

namespace TimeUnit

/-- The coarsest unit that divides a number of milliseconds; of none of them, seconds. -/
def coarsest (count : Nat) : TimeUnit :=
  if count % 3600000 = 0 && count ≠ 0 then .hours
  else if count % 60000 = 0 && count ≠ 0 then .minutes
  else if count % 1000 = 0 then .seconds
  else .milliseconds

variable {count : Nat} {unit : TimeUnit}

theorem millis_pos (unit : TimeUnit) : 0 < unit.millis := by cases unit <;> decide

theorem suffix_solid (unit : TimeUnit) :
    ∀ c ∈ unit.suffix, isBlank c = false ∧ c.utf8Size = 1 := by
  have all : unit.suffix.all (fun c => !isBlank c && c.utf8Size == 1) = true := by
    cases unit <;> decide
  intro c member
  simpa using List.all_eq_true.mp all c member

theorem coarsest_dvd (count : Nat) : (coarsest count).millis ∣ count := by
  apply Nat.dvd_of_mod_eq_zero
  unfold coarsest
  split
  · rename_i whole
    exact of_decide_eq_true (Bool.and_eq_true_iff.mp whole).1
  · split
    · rename_i whole
      exact of_decide_eq_true (Bool.and_eq_true_iff.mp whole).1
    · split
      · assumption
      · exact Nat.mod_one count

/-- A unit that divides a number of milliseconds is no coarser than the coarsest one and takes no
fewer letters. -/
theorem coarsest_covers (whole : unit.millis ∣ count) (filled : count ≠ 0) :
    unit.millis ≤ (coarsest count).millis ∧
      (coarsest count).suffix.length ≤ unit.suffix.length := by
  cases unit with
  | milliseconds => cases coarsest count <;> decide
  | seconds =>
      have seconds : count % 1000 = 0 := Nat.mod_eq_zero_of_dvd whole
      unfold coarsest
      rw [if_pos seconds]
      split
      · decide
      · split <;> decide
  | minutes =>
      have minutes : count % 60000 = 0 := Nat.mod_eq_zero_of_dvd whole
      have found : (decide (count % 60000 = 0) && decide (count ≠ 0)) = true := by
        simp [minutes, filled]
      unfold coarsest
      rw [if_pos found]
      split <;> decide
  | hours =>
      have hours : count % 3600000 = 0 := Nat.mod_eq_zero_of_dvd whole
      have found : (decide (count % 3600000 = 0) && decide (count ≠ 0)) = true := by
        simp [hours, filled]
      unfold coarsest
      rw [if_pos found]
      decide

/-- No unit that divides a number of milliseconds makes for a shorter text. -/
theorem coarsest_shortest (whole : unit.millis ∣ count) :
    (Nat.toDigits 10 (count / (coarsest count).millis)).length + (coarsest count).suffix.length ≤
      (Nat.toDigits 10 (count / unit.millis)).length + unit.suffix.length := by
  by_cases filled : count = 0
  · subst filled
    cases unit <;> decide
  · obtain ⟨coarser, shorter⟩ := coarsest_covers whole filled
    have fewer : count / (coarsest count).millis ≤ count / unit.millis :=
      Nat.div_le_div_left coarser unit.millis_pos
    exact Nat.add_le_add (length_toDigits_mono fewer) shorter

end TimeUnit

variable {duration : Duration}

/-- The parts of the text of a duration. -/
def rendered (duration : Duration) : Written where
  hasPlus := false
  digits := Nat.toDigits 10 (duration.millis / (TimeUnit.coarsest duration.millis).millis)
  gap := []
  unit := .coarsest duration.millis
  filled := Nat.toDigits_ne_nil
  decimal := fun _ member => Nat.isDigit_of_mem_toDigits (by decide) (by decide) member
  blank := by simp

theorem rendered_characters (duration : Duration) :
    duration.rendered.characters =
      Nat.toDigits 10 (duration.millis / (TimeUnit.coarsest duration.millis).millis) ++
        (TimeUnit.coarsest duration.millis).suffix := by
  simp [Written.characters, Written.numeral, rendered, signed]

theorem render_eq (duration : Duration) :
    duration.render = String.ofList duration.rendered.characters := by
  rw [rendered_characters]
  simp only [render, decimal, TimeUnit.coarsest, String.ofList_append]
  split
  · rfl
  · split
    · rfl
    · split
      · rfl
      · simp [TimeUnit.millis, TimeUnit.suffix]

theorem rendered_millis (duration : Duration) : duration.rendered.millis = duration.millis := by
  change Nat.ofDigitChars 10 (Nat.toDigits 10 _) 0 * _ = _
  rw [Nat.ofDigitChars_ten_toDigits]
  exact Nat.div_mul_cancel (TimeUnit.coarsest_dvd duration.millis)

theorem rendered_solid (duration : Duration) :
    ∀ c ∈ duration.rendered.characters, isBlank c = false ∧ c.utf8Size = 1 := by
  intro c member
  rw [rendered_characters] at member
  obtain digit | letter := List.mem_append.mp member
  · exact ⟨isBlank_of_isDigit (isDigit_of_mem_toDigits digit),
      utf8Size_of_isDigit (Nat.isDigit_of_mem_toDigits (by decide) (by decide) digit)⟩
  · exact TimeUnit.suffix_solid _ c letter

theorem trimChars_render (duration : Duration) :
    trimChars duration.render.toList = duration.rendered.characters := by
  rw [render_eq, String.toList_ofList]
  exact trimChars_of_solid fun c member => (duration.rendered_solid c member).1

theorem rendered_fits_iff : duration.rendered.Fits ↔ duration.millis < UInt64.size := by
  rw [Written.Fits, rendered_millis]
  have less : duration.rendered.count ≤ duration.rendered.millis :=
    Nat.le_mul_of_pos_right _ (TimeUnit.millis_pos _)
  rw [rendered_millis] at less
  exact ⟨fun fits => fits.2, fun fits => ⟨Nat.lt_of_le_of_lt less fits, fits⟩⟩

theorem parse_render_eq (duration : Duration) :
    parse duration.render =
      if duration.millis < UInt64.size then .ok (.ofMillis duration.millis)
      else .error duration.render := by
  split
  · rename_i fits
    refine parse_eq_ok_iff.mpr ⟨duration.rendered, trimChars_render duration, ?_, ?_⟩
    · exact rendered_fits_iff.mpr fits
    · rw [rendered_millis]
  · rename_i overflows
    refine parse_eq_error_iff.mpr ⟨?_, ?_⟩
    · rw [trim, trimChars_render, render_eq]
    · intro written same fits
      obtain rfl := Written.characters_injective ((trimChars_render duration).symm.trans same)
      exact overflows (rendered_fits_iff.mp fits)

theorem length_rendered_le {text : String} (read : parse text = .ok duration) :
    duration.rendered.characters.length ≤ text.toList.length := by
  obtain ⟨written, core, _, rfl⟩ := parse_eq_ok_iff.mp read
  have whole : written.unit.millis ∣ written.millis := Nat.dvd_mul_left ..
  have shortest := TimeUnit.coarsest_shortest whole
  have count : written.millis / written.unit.millis = written.count :=
    Nat.mul_div_cancel _ written.unit.millis_pos
  have fewest : (Nat.toDigits 10 written.count).length ≤ written.digits.length :=
    length_toDigits_le written.filled written.decimal
  have parts : written.digits.length + written.unit.suffix.length ≤ written.characters.length := by
    simp only [Written.characters, Written.numeral, signed, List.length_append]
    split
    · rw [List.length_cons]
      omega
    · omega
  have trimmed := length_trimChars_le text.toList
  rw [core] at trimmed
  rw [count] at shortest
  rw [rendered_characters, millis_ofMillis, List.length_append]
  omega

/-- What is written for a duration is read back as the duration rounded down to the millisecond if
the milliseconds fit 64 bits, and otherwise refused. So a duration of whole milliseconds that fit is
read back as it is, and no text that is read as a duration has fewer characters or bytes than what
is written for it. -/
theorem render_is_shortest (duration : Duration) :
    (∀ count, count < UInt64.size → duration = .ofMillis count →
      parse duration.render = .ok duration) ∧
    (∀ text, parse text = .ok duration → duration.render.length ≤ text.length ∧
      duration.render.utf8ByteSize ≤ text.utf8ByteSize) ∧
    ∃ count, count * 1000000 ≤ duration.nanos ∧ duration.nanos < (count + 1) * 1000000 ∧
      parse duration.render =
        if count < UInt64.size then .ok (.ofMillis count) else .error duration.render := by
  refine ⟨?_, ?_, duration.millis, ?_, ?_, parse_render_eq duration⟩
  · rintro count fits rfl
    exact parse_render ⟨count, fits, rfl⟩
  · intro text read
    have shortest := length_rendered_le read
    have ascii : ∀ c ∈ duration.rendered.characters, c.utf8Size = 1 :=
      fun c member => (duration.rendered_solid c member).2
    have bytes : text.utf8ByteSize = String.utf8Len text.toList := by
      rw [← String.utf8ByteSize_ofList, String.ofList_toList]
    rw [render_eq, String.length_ofList, String.utf8ByteSize_ofList, utf8Len_of_ascii ascii, bytes]
    exact ⟨shortest, Nat.le_trans shortest (length_le_utf8Len text.toList)⟩
  · exact Nat.div_mul_le_self ..
  · rw [Nat.mul_comm]
    exact Nat.lt_mul_div_succ duration.nanos (by decide)

end Duration

end ScrapeRelay
