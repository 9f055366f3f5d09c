import ScrapeRelay.Binary64

/-!
# TOML values

The tables of a value keep their entries in the order in which they are read or written.
-/

namespace ScrapeRelay

inductive Toml where
  | text (value : String)
  | integer (value : Int64)
  | real (value : Binary64)
  | bool (value : Bool)
  /-- A date, a time or both, in its normal form. -/
  | datetime (value : String)
  | array (elements : List Toml)
  | table (entries : List (String × Toml))
deriving Inhabited

namespace Toml

abbrev Entries := List (String × Toml)

def datetimeKey : String := "$__toml_private_datetime"

/-- The value under the key of dates and times, and the entries behind it, if a table begins
with that key. -/
def dated? : Entries → Option (Toml × Entries)
  | [] => none
  | (key, value) :: rest => if key = datetimeKey then some (value, rest) else none

def entries? : Toml → Option Entries
  | .table entries => some entries
  | .datetime value => some [(datetimeKey, .text value)]
  | _ => none

/-- Induction over a value and all values inside it. -/
@[elab_as_elim]
theorem nested {motive : Toml → Prop} (text : ∀ value, motive (.text value))
    (integer : ∀ value, motive (.integer value)) (real : ∀ value, motive (.real value))
    (bool : ∀ value, motive (.bool value)) (datetime : ∀ value, motive (.datetime value))
    (array : ∀ elements, (∀ element ∈ elements, motive element) → motive (.array elements))
    (table : ∀ entries, (∀ entry ∈ entries, motive entry.2) → motive (.table entries)) :
    ∀ value, motive value
  | .text value => text value
  | .integer value => integer value
  | .real value => real value
  | .bool value => bool value
  | .datetime value => datetime value
  | .array elements => array elements fun element _ =>
      nested text integer real bool datetime array table element
  | .table entries => table entries fun entry _ =>
      nested text integer real bool datetime array table entry.2
termination_by value => sizeOf value
decreasing_by
  · have smaller := List.sizeOf_lt_of_mem ‹element ∈ elements›
    simp only [Toml.array.sizeOf_spec]
    omega
  · have smaller := List.sizeOf_lt_of_mem ‹entry ∈ entries›
    have part : sizeOf entry.2 < sizeOf entry := by
      cases entry
      simp only [Prod.mk.sizeOf_spec]
      omega
    simp only [Toml.table.sizeOf_spec]
    omega

def isTable : Toml → Bool
  | .table _ => true
  | _ => false

def find? (key : String) : Entries → Option Toml
  | [] => none
  | (name, value) :: rest => if name = key then some value else find? key rest

mutual

/-- Equality of values. Floating-point values are compared as numbers, so a value
that holds NaN differs from itself. -/
def equal : Toml → Toml → Bool
  | .text left, .text right => left = right
  | .integer left, .integer right => left = right
  | .real left, .real right => left.equal right
  | .bool left, .bool right => left = right
  | .datetime left, .datetime right => left = right
  | .array left, .array right => equalElements left right
  | .table left, .table right => equalEntries left right
  | _, _ => false

def equalElements : List Toml → List Toml → Bool
  | [], [] => true
  | left :: lefts, right :: rights => equal left right && equalElements lefts rights
  | _, _ => false

def equalEntries : Entries → Entries → Bool
  | [], [] => true
  | (name, left) :: lefts, (other, right) :: rights =>
      name = other && equal left right && equalEntries lefts rights
  | _, _ => false

end

end Toml

end ScrapeRelay
