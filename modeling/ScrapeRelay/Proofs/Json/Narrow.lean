import ScrapeRelay.Json.Reader
import ScrapeRelay.Proofs.Binary64

/-!
# Integers that are read fit 64 bits

A number without fraction and exponent is an integer only as long as its digits fit 64 bits
(`narrow_of_parse?`), so that what is read as a floating-point value is finite in any case
(`isFinite_of_real?`).
-/

namespace ScrapeRelay.Json

open ScrapeRelay.Text

variable {value : Json} {fuel : Nat} {input rest : List Char}

/-- All integers inside fit 64 bits. -/
inductive Narrow : Json → Prop
  | null : Narrow .null
  | bool (flag : Bool) : Narrow (.bool flag)
  | integer {number : Int} (fits : number.natAbs < wordLimit) : Narrow (.integer number)
  | real (number : Binary64) : Narrow (.real number)
  | text (content : String) : Narrow (.text content)
  | brokenText : Narrow .brokenText
  | array {elements : List Json} (narrow : ∀ value ∈ elements, Narrow value) :
      Narrow (.array elements)
  | object {members : List (Option String × Json)} (narrow : ∀ member ∈ members, Narrow member.2) :
      Narrow (.object members)

theorem collect_lt (significand : Nat) (digits : List Char) (fits : significand < wordLimit) :
    (collect significand digits).1 < wordLimit := by
  induction digits generalizing significand with
  | nil => exact fits
  | cons digit digits ih =>
      rw [collect]
      split
      · rename_i next
        exact ih _ next
      · exact fits

theorem wholeNumber_narrow (negative : Bool) (whole : List Char) :
    Narrow (wholeNumber negative whole) := by
  have fits := collect_lt 0 whole (by decide)
  unfold wholeNumber
  dsimp only
  split
  · exact .integer fits
  · split
    · exact .integer (by rwa [Int.natAbs_neg])
    · exact .real _

theorem readNumber_narrow (read : readNumber input = some (value, rest)) : Narrow value := by
  unfold readNumber at read
  dsimp only at read
  repeat' split at read
  all_goals cases read
  all_goals first | exact wholeNumber_narrow _ _ | exact .real _

theorem narrow_of_expect? {word : List Char} {literal : Json} (narrow : Narrow literal)
    (read : (expect? word input).map (fun rest => (literal, rest)) = some (value, rest)) :
    Narrow value := by
  obtain ⟨_, _, same⟩ := Option.map_eq_some_iff.mp read
  cases same
  exact narrow

/-- Each of the three readers leaves what is inside to the others with less fuel. -/
theorem read_narrow (fuel : Nat) :
    (∀ {input value rest}, readValue fuel input = some (value, rest) → Narrow value) ∧
    (∀ {input values rest}, readElements fuel input = some (values, rest) →
      ∀ value ∈ values, Narrow value) ∧
    (∀ {input members rest}, readMembers fuel input = some (members, rest) →
      ∀ member ∈ members, Narrow member.2) := by
  induction fuel with
  | zero => simp [readValue, readElements, readMembers]
  | succ fuel ih =>
      obtain ⟨inValue, inElements, inMembers⟩ := ih
      refine ⟨?_, ?_, ?_⟩
      · intro input value rest read
        rw [readValue] at read
        split at read
        · cases read
        · split_ifs at read
          · split at read <;> cases read
            · exact .text _
            · exact .brokenText
          · split at read
            · cases read
              exact .array (List.forall_mem_nil _)
            · split at read <;> cases read
              rename_i elements
              exact .array (inElements elements)
          · split at read
            · cases read
              exact .object (List.forall_mem_nil _)
            · split at read <;> cases read
              rename_i members
              exact .object (inMembers members)
          · exact narrow_of_expect? (.bool true) read
          · exact narrow_of_expect? (.bool false) read
          · exact narrow_of_expect? .null read
          · exact readNumber_narrow read
      · intro input values rest read
        rw [readElements] at read
        split at read
        · cases read
        · rename_i first
          split at read
          · split at read <;> cases read
            rename_i others
            exact List.forall_mem_cons.mpr ⟨inValue first, inElements others⟩
          · cases read
            exact List.forall_mem_singleton.mpr (inValue first)
          · cases read
      · intro input members rest read
        rw [readMembers] at read
        split at read
        · split at read
          · cases read
          · split at read
            · split at read
              · cases read
              · rename_i first
                split at read
                · split at read <;> cases read
                  rename_i others
                  exact List.forall_mem_cons.mpr ⟨inValue first, inMembers others⟩
                · cases read
                  exact List.forall_mem_singleton.mpr (inValue first)
                · cases read
            · cases read
        · cases read

/-- What is read holds no integer beyond 64 bits. -/
theorem narrow_of_parse? {source : String} (read : parse? source = some value) : Narrow value := by
  unfold parse? at read
  dsimp only at read
  split at read
  · rename_i whole
    split_ifs at read
    cases read
    exact (read_narrow _).1 whole
  · cases read

theorem isFinite_of_real? {real : Binary64} (narrow : Narrow value)
    (read : value.real? = some real) : real.isFinite = true := by
  unfold real? at read
  split at read
  · cases read
    cases narrow with
    | integer fits => exact Binary64.isFinite_ofInt fits
  · split_ifs at read with finite
    cases read
    exact finite
  · cases read

theorem Narrow.of_mem_membersNamed {name : String} {members : List (Option String × Json)}
    (narrow : ∀ member ∈ members, Narrow member.2)
    (inside : value ∈ membersNamed name members) : Narrow value := by
  induction members with
  | nil => cases inside
  | cons member members ih =>
      obtain ⟨first, others⟩ := List.forall_mem_cons.mp narrow
      rw [membersNamed] at inside
      split at inside
      · obtain rfl | inside := List.mem_cons.mp inside
        · exact first
        · exact ih others inside
      · exact ih others inside

end ScrapeRelay.Json
