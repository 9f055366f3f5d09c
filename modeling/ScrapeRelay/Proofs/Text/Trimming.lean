import Mathlib.Data.List.DropRight
import ScrapeRelay.Text.Blank

/-!
# Text without the blanks at its ends

Trimming finds the part of a text that has nothing but blanks around it and a blank at neither end.
There is only one such part (`trims_iff`).
-/

namespace ScrapeRelay.Text

variable {text core front back : List Char}

/-- A text has nothing but blanks around a part that neither begins nor ends with a blank. -/
structure Trims (text core : List Char) : Prop where
  surrounded : ∃ front back, text = front ++ core ++ back ∧
    (∀ c ∈ front, isBlank c = true) ∧ ∀ c ∈ back, isBlank c = true
  first : ∀ c ∈ core.head?, isBlank c = false
  last : ∀ c ∈ core.getLast?, isBlank c = false

theorem dropWhile_isBlank_head (text : List Char) :
    ∀ c ∈ (text.dropWhile isBlank).head?, isBlank c = false := by
  intro c head
  have stop := List.head?_dropWhile_not isBlank text
  rw [Option.mem_def.mp head] at stop
  exact stop

theorem trims_trimChars (text : List Char) : Trims text (trimChars text) := by
  have ends : trimChars text = (text.dropWhile isBlank).rdropWhile isBlank := rfl
  have behind : trimChars text ++ (text.dropWhile isBlank).rtakeWhile isBlank =
      text.dropWhile isBlank := List.rdropWhile_append_rtakeWhile ..
  constructor
  · refine ⟨text.takeWhile isBlank, (text.dropWhile isBlank).rtakeWhile isBlank, ?_, ?_, ?_⟩
    · rw [List.append_assoc, behind, List.takeWhile_append_dropWhile]
    · exact List.all_eq_true.mp List.all_takeWhile
    · intro c member
      exact List.mem_rtakeWhile_imp member
  · intro c head
    apply dropWhile_isBlank_head text c
    rw [← behind, List.head?_append, Option.mem_def.mp head]
    rfl
  · intro c last
    obtain ⟨filled, rfl⟩ := List.mem_getLast?_eq_getLast last
    have stop := List.rdropWhile_last_not isBlank (text.dropWhile isBlank) filled
    exact Bool.eq_false_iff.mpr stop

/-- Trimming drops what stands before a part that does not begin with a blank, and after one that
does not end with a blank. -/
theorem trimChars_surrounded (front_blank : ∀ c ∈ front, isBlank c = true)
    (back_blank : ∀ c ∈ back, isBlank c = true)
    (first : ∀ c ∈ core.head?, isBlank c = false) (last : ∀ c ∈ core.getLast?, isBlank c = false) :
    trimChars (front ++ core ++ back) = core := by
  rw [trimChars, List.append_assoc, List.dropWhile_append_of_pos front_blank]
  cases core with
  | nil => simp [List.dropWhile_eq_nil_iff.mpr back_blank]
  | cons c rest =>
      have solid : isBlank c = false := first c rfl
      have kept : (c :: rest ++ back).dropWhile isBlank = c :: rest ++ back := by
        simp [solid]
      have reversed : ((c :: rest).reverse).dropWhile isBlank = (c :: rest).reverse := by
        apply List.dropWhile_eq_self_iff.mpr
        intro filled
        rw [last _ (by rw [List.getLast?_eq_head?_reverse, List.head?_eq_getElem?]; simp)]
        exact Bool.false_ne_true
      have blanks : ∀ c ∈ back.reverse, isBlank c = true :=
        fun c member => back_blank c (List.mem_reverse.mp member)
      rw [kept, List.reverse_append, List.dropWhile_append_of_pos blanks, reversed,
        List.reverse_reverse]

theorem trims_iff : Trims text core ↔ core = trimChars text := by
  constructor
  · intro trims
    obtain ⟨front, back, rfl, front_blank, back_blank⟩ := trims.surrounded
    exact (trimChars_surrounded front_blank back_blank trims.first trims.last).symm
  · rintro rfl
    exact trims_trimChars text

end ScrapeRelay.Text
