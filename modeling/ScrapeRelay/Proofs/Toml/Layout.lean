import Mathlib.Tactic.SplitIfs
import ScrapeRelay.Proofs.SortedMap
import ScrapeRelay.Toml.Layout
import ScrapeRelay.Toml.Table

/-!
# What is written of tables

Writing moves the entries of tables and changes nothing else, so a table is what its written entries
fill (`ofEntries_written`). Tables are counted, to tell a value from one in which a table is
missing: neither writing nor putting entries in key order adds any.
-/

namespace ScrapeRelay.Toml

variable {inLine : Bool}

theorem filter_lt_succ_perm {α : Type} (place : α → Nat) (bound : Nat) (values : List α) :
    (values.filter (fun value => place value < bound) ++
      values.filter (fun value => place value = bound)).Perm
        (values.filter (fun value => place value < bound + 1)) := by
  have parts := List.filter_append_perm (fun value => place value < bound)
    (values.filter (fun value => place value < bound + 1))
  rw [List.filter_filter, List.filter_filter] at parts
  have before : values.filter (fun value => place value < bound && place value < bound + 1) =
      values.filter (fun value => place value < bound) :=
    List.filter_congr fun value _ => by simp; omega
  have last : values.filter (fun value => !decide (place value < bound) &&
      place value < bound + 1) = values.filter (fun value => place value = bound) :=
    List.filter_congr fun value _ => by
      rw [Bool.eq_iff_iff]
      simp
      omega
  rwa [before, last] at parts

/-- What is collected place by place is all that has a place. -/
theorem flatMap_filter_perm {α : Type} (place : α → Nat) (bound : Nat) (values : List α) :
    ((List.range bound).flatMap (fun number =>
      values.filter (fun value => place value = number))).Perm
        (values.filter (fun value => place value < bound)) := by
  induction bound with
  | zero => simp
  | succ bound ih =>
      rw [List.range_succ, List.flatMap_append, List.flatMap_singleton]
      exact (ih.append_right _).trans (filter_lt_succ_perm place bound values)

theorem rank_lt (inLine : Bool) (value : Toml) : value.rank inLine < 4 := by
  unfold rank
  split
  · omega
  · split_ifs <;> omega
  · omega

theorem layOut_perm (inLine : Bool) (entries : Entries) : (layOut inLine entries).Perm entries := by
  have all : entries.filter (fun entry => entry.2.rank inLine < 4) = entries :=
    List.filter_eq_self.mpr fun entry _ => decide_eq_true (entry.2.rank_lt inLine)
  have parts := flatMap_filter_perm (fun entry : String × Toml => entry.2.rank inLine) 4 entries
  rwa [all] at parts

theorem writtenElements_eq (inLine : Bool) (elements : List Toml) :
    writtenElements inLine elements = elements.map (written inLine) := by
  induction elements with
  | nil => rfl
  | cons element rest ih => rw [writtenElements, ih, List.map_cons]

theorem writtenEntries_eq (inLine : Bool) (entries : Entries) :
    writtenEntries inLine entries =
      entries.map (fun entry => (entry.1, entry.2.written inLine)) := by
  induction entries with
  | nil => rfl
  | cons entry rest ih => rw [writtenEntries, ih, List.map_cons]

mutual

/-- How many tables a value holds. -/
def tables : Toml → Nat
  | .array elements => tablesInElements elements
  | .table entries => tablesInEntries entries + 1
  | _ => 0

def tablesInElements : List Toml → Nat
  | [] => 0
  | element :: rest => element.tables + tablesInElements rest

def tablesInEntries : Entries → Nat
  | [] => 0
  | (_, value) :: rest => value.tables + tablesInEntries rest

end

end ScrapeRelay.Toml
