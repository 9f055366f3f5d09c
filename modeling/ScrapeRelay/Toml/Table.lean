import ScrapeRelay.SortedMap
import ScrapeRelay.Toml

/-!
# Tables in key order

A document fills a table in any order. A table that is held has its entries in key order, and so
have all tables inside it.
-/

namespace ScrapeRelay.Toml

mutual

/-- Whether something holds for a value and for all values inside it. -/
def every (holds : Toml → Bool) : Toml → Bool
  | .array elements => holds (.array elements) && everyElement holds elements
  | .table entries => holds (.table entries) && everyEntry holds entries
  | value => holds value

def everyElement (holds : Toml → Bool) : List Toml → Bool
  | [] => true
  | element :: rest => every holds element && everyElement holds rest

def everyEntry (holds : Toml → Bool) : Entries → Bool
  | [] => true
  | (_, value) :: rest => every holds value && everyEntry holds rest

end

theorem everyElement_iff {holds : Toml → Bool} {elements : List Toml} :
    everyElement holds elements = true ↔ ∀ element ∈ elements, every holds element = true := by
  induction elements with
  | nil => simp [everyElement]
  | cons element rest ih => simp [everyElement, ih]

theorem everyEntry_iff {holds : Toml → Bool} {entries : Entries} :
    everyEntry holds entries = true ↔ ∀ entry ∈ entries, every holds entry.2 = true := by
  induction entries with
  | nil => simp [everyEntry]
  | cons entry rest ih => simp [everyEntry, ih]

theorem every_array_iff {holds : Toml → Bool} {elements : List Toml} :
    every holds (.array elements) = true ↔
      holds (.array elements) = true ∧ ∀ element ∈ elements, every holds element = true := by
  rw [every, Bool.and_eq_true, everyElement_iff]

theorem every_table_iff {holds : Toml → Bool} {entries : Entries} :
    every holds (.table entries) = true ↔
      holds (.table entries) = true ∧ ∀ entry ∈ entries, every holds entry.2 = true := by
  rw [every, Bool.and_eq_true, everyEntry_iff]

def hasKeysInOrder : Toml → Bool
  | .table entries => entries.Pairwise (fun left right => left.1 < right.1)
  | _ => true

mutual

/-- A value with the entries of all its tables in key order. -/
def sorted : Toml → Toml
  | .array elements => .array (sortedElements elements)
  | .table entries => .table (SortedMap.ofList (sortedEntries entries)).entries
  | value => value

def sortedElements : List Toml → List Toml
  | [] => []
  | element :: rest => element.sorted :: sortedElements rest

def sortedEntries : Entries → Entries
  | [] => []
  | (key, value) :: rest => (key, value.sorted) :: sortedEntries rest

end

theorem sortedElements_eq (elements : List Toml) :
    sortedElements elements = elements.map sorted := by
  induction elements with
  | nil => rfl
  | cons element rest ih => rw [sortedElements, ih, List.map_cons]

theorem sortedEntries_eq (entries : Entries) :
    sortedEntries entries = entries.map (fun entry => (entry.1, entry.2.sorted)) := by
  induction entries with
  | nil => rfl
  | cons entry rest ih => rw [sortedEntries, ih, List.map_cons]

/-- Entries in key order are those that they were made of. -/
theorem exists_of_mem_sorted {entries : Entries} {entry : String × Toml}
    (member : entry ∈ (SortedMap.ofList (sortedEntries entries)).entries) :
    ∃ old ∈ entries, entry = (old.1, old.2.sorted) := by
  have filled := SortedMap.mem_ofList member
  rw [sortedEntries_eq] at filled
  obtain ⟨old, given, rfl⟩ := List.mem_map.mp filled
  exact ⟨old, given, rfl⟩

theorem every_sorted (value : Toml) : value.sorted.every hasKeysInOrder = true := by
  induction value using nested with
  | array elements each =>
      rw [sorted, sortedElements_eq]
      exact every_array_iff.mpr ⟨rfl, List.forall_mem_map.mpr each⟩
  | table entries each =>
      refine every_table_iff.mpr ⟨decide_eq_true (SortedMap.ascending _), fun entry member => ?_⟩
      obtain ⟨old, listed, rfl⟩ := exists_of_mem_sorted member
      exact each old listed
  | _ => rfl

@[ext]
structure Table where
  entries : Entries
  inOrder : every hasKeysInOrder (.table entries) = true

namespace Table

/-- The table that entries fill, in whatever order they are given. -/
def ofEntries (entries : Entries) : Table :=
  ⟨(SortedMap.ofList (sortedEntries entries)).entries, every_sorted (.table entries)⟩

def empty : Table := .ofEntries []

instance : Coe Table Entries := ⟨entries⟩

instance : Coe Entries Table := ⟨ofEntries⟩

end Table

end ScrapeRelay.Toml
