/-!
# Joined texts

Two texts with a character between them can be told apart again where the first one, or the second
one, does not contain that character.
-/

namespace ScrapeRelay

theorem append_separator_inj {α : Type} {separator : α} {left right rest rest' : List α}
    (clean : separator ∉ left) (clean' : separator ∉ right)
    (same : left ++ separator :: rest = right ++ separator :: rest') :
    left = right ∧ rest = rest' := by
  induction left generalizing right with
  | nil =>
      cases right with
      | nil => exact ⟨rfl, (List.cons.inj same).2⟩
      | cons first right =>
          obtain rfl : separator = first := (List.cons.inj same).1
          exact absurd List.mem_cons_self clean'
  | cons first left ih =>
      cases right with
      | nil =>
          obtain rfl : first = separator := (List.cons.inj same).1
          exact absurd List.mem_cons_self clean
      | cons first' right =>
          obtain ⟨rfl, tails⟩ := List.cons.inj same
          obtain ⟨lefts, rests⟩ := ih (fun member => clean (List.mem_cons_of_mem _ member))
            (fun member => clean' (List.mem_cons_of_mem _ member)) tails
          exact ⟨congrArg (first :: ·) lefts, rests⟩

theorem append_last_separator_inj {α : Type} {separator : α} {left right rest rest' : List α}
    (clean : separator ∉ rest) (clean' : separator ∉ rest')
    (same : left ++ separator :: rest = right ++ separator :: rest') :
    left = right ∧ rest = rest' := by
  have reversed := congrArg List.reverse same
  simp only [List.reverse_append, List.reverse_cons, List.append_assoc, List.singleton_append]
    at reversed
  obtain ⟨rests, lefts⟩ := append_separator_inj (mt List.mem_reverse.mp clean)
    (mt List.mem_reverse.mp clean') reversed
  exact ⟨List.reverse_inj.mp lefts, List.reverse_inj.mp rests⟩

/-- Texts joined by a character are equal only if both parts are. -/
theorem joined_inj {separator : Char} {left right rest rest' : String}
    (clean : separator ∉ left.toList) (clean' : separator ∉ right.toList)
    (same : left ++ String.singleton separator ++ rest =
      right ++ String.singleton separator ++ rest') :
    left = right ∧ rest = rest' := by
  have characters := congrArg String.toList same
  simp only [String.toList_append, String.toList_singleton, List.append_assoc,
    List.singleton_append] at characters
  obtain ⟨lefts, rests⟩ := append_separator_inj clean clean' characters
  exact ⟨String.toList_inj.mp lefts, String.toList_inj.mp rests⟩

/-- The character may stand in the first parts as well, if it does not in the second ones. -/
theorem joined_last_inj {separator : Char} {left right rest rest' : String}
    (clean : separator ∉ rest.toList) (clean' : separator ∉ rest'.toList)
    (same : left ++ String.singleton separator ++ rest =
      right ++ String.singleton separator ++ rest') :
    left = right ∧ rest = rest' := by
  have characters := congrArg String.toList same
  simp only [String.toList_append, String.toList_singleton, List.append_assoc,
    List.singleton_append] at characters
  obtain ⟨lefts, rests⟩ := append_last_separator_inj clean clean' characters
  exact ⟨String.toList_inj.mp lefts, String.toList_inj.mp rests⟩

end ScrapeRelay
