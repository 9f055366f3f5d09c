import Mathlib.Algebra.Group.Nat.Defs
import ScrapeRelay.Text.Decimal

/-!
# Decimal numerals

A number is read back from its digits, and no other digits of the same value are fewer
(`length_toDigits_le`), so only zero starts with a zero.
-/

namespace ScrapeRelay.Text

variable {digits : List Char} {value : Nat}

theorem isDigit_eq (c : Char) : isDigit c = c.isDigit := by
  simp [isDigit, Char.isDigit, Char.le_def]

theorem digit_code {c : Char} (digit : c.isDigit = true) : 48 ≤ c.toNat ∧ c.toNat ≤ 57 := by
  simp only [Char.isDigit, Bool.and_eq_true, decide_eq_true_eq, UInt32.le_iff_toNat_le,
    ge_iff_le] at digit
  exact digit

theorem isDigit_of_mem_toDigits {c : Char} (member : c ∈ Nat.toDigits 10 value) :
    isDigit c = true := by
  have digit := Nat.isDigit_of_mem_toDigits (by decide) (by decide) member
  simpa [Char.isDigit, isDigit, Char.le_def] using digit

theorem exists_toDigits_eq_cons (value : Nat) :
    ∃ first rest, Nat.toDigits 10 value = first :: rest ∧ isDigit first = true := by
  cases shape : Nat.toDigits 10 value with
  | nil => exact absurd shape Nat.toDigits_ne_nil
  | cons first rest =>
      exact ⟨first, rest, rfl, isDigit_of_mem_toDigits (shape ▸ List.mem_cons_self)⟩

theorem numeral_eq (digits : List Char) : numeral digits = Nat.ofDigitChars 10 digits 0 := by
  simp only [numeral, Nat.ofDigitChars_eq_foldl, digitValue, Nat.mul_comm]

theorem numeral_toDigits (value : Nat) : numeral (Nat.toDigits 10 value) = value := by
  rw [numeral_eq]
  exact Nat.ofDigitChars_ten_toDigits

theorem decimal_inj {left right : Nat} : decimal left = decimal right ↔ left = right := by
  refine ⟨fun same => ?_, congrArg decimal⟩
  rw [← numeral_toDigits left, ← numeral_toDigits right, String.ofList_injective same]

theorem digits?_toDigits (value : Nat) : digits? (Nat.toDigits 10 value) = some value := by
  have filled : (Nat.toDigits 10 value).isEmpty = false := by simp
  have digits : (Nat.toDigits 10 value).all isDigit = true :=
    List.all_eq_true.mpr fun _ member => isDigit_of_mem_toDigits member
  rw [digits?, if_neg (by simp [filled]), if_pos digits, numeral_toDigits]

theorem word?_toDigits (fits : value < wordLimit) : word? (Nat.toDigits 10 value) = some value := by
  cases shape : Nat.toDigits 10 value with
  | nil => exact absurd shape Nat.toDigits_ne_nil
  | cons first rest =>
      have member : first ∈ Nat.toDigits 10 value := shape ▸ List.mem_cons_self
      have digit : isDigit first = true := isDigit_of_mem_toDigits member
      have unsigned : first ≠ '+' := by
        rintro rfl
        simp [isDigit] at digit
      have read := digits?_toDigits value
      rw [shape] at read
      simp [word?, unsigned, read, fits]

/-- So many digits write a number below that power of ten. -/
theorem ofDigitChars_lt (decimal : ∀ c ∈ digits, c.isDigit = true) :
    Nat.ofDigitChars 10 digits 0 < 10 ^ digits.length := by
  induction digits with
  | nil => simp
  | cons digit rest ih =>
      have head : digit.toNat - 48 ≤ 9 := by
        have code := digit_code (decimal digit List.mem_cons_self)
        omega
      have tail := ih fun c member => decimal c (List.mem_cons_of_mem digit member)
      have scaled := Nat.mul_le_mul_left (10 ^ rest.length) head
      rw [Nat.ofDigitChars_cons, Nat.ofDigitChars_eq_ofDigitChars_zero, List.length_cons,
        Nat.pow_succ]
      simp only [Nat.mul_zero, Nat.zero_add, Char.reduceToNat]
      omega

/-- A numeral without leading zeros is the shortest one of its value. -/
theorem length_toDigits_le (filled : digits ≠ []) (decimal : ∀ c ∈ digits, c.isDigit = true) :
    (Nat.toDigits 10 (Nat.ofDigitChars 10 digits 0)).length ≤ digits.length :=
  (Nat.length_toDigits_le_iff (by decide) (List.length_pos_iff.mpr filled)).mpr
    (ofDigitChars_lt decimal)

theorem length_toDigits_mono {left right : Nat} (less : left ≤ right) :
    (Nat.toDigits 10 left).length ≤ (Nat.toDigits 10 right).length := by
  have fits : right < 10 ^ (Nat.toDigits 10 right).length :=
    (Nat.length_toDigits_le_iff (by decide) Nat.length_toDigits_pos).mp (Nat.le_refl _)
  exact (Nat.length_toDigits_le_iff (by decide) Nat.length_toDigits_pos).mpr
    (Nat.lt_of_le_of_lt less fits)

/-- Only zero is written with a zero in front. -/
theorem rest_of_zero_first {rest : List Char} (written : Nat.toDigits 10 value = '0' :: rest) :
    rest = [] := by
  refine Decidable.byContradiction fun filled => ?_
  have decimal : ∀ c ∈ rest, c.isDigit = true := fun c member =>
    Nat.isDigit_of_mem_toDigits (by decide) (by decide)
      (written ▸ List.mem_cons_of_mem _ member)
  have same : Nat.ofDigitChars 10 rest 0 = value := by
    rw [← Nat.ofDigitChars_ten_toDigits (n := value), written, Nat.ofDigitChars_cons]
    simp
  have shorter := length_toDigits_le filled decimal
  rw [same, written, List.length_cons] at shorter
  omega

end ScrapeRelay.Text
