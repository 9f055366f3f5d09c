import ScrapeRelay.Config.Equality
import ScrapeRelay.Proofs.Toml.Layout

/-!
# Options of providers

Options are any values, so what is said of them is said of a value with all values inside it. A
value equals itself unless it holds NaN (`equal_self`). A table that begins with the key reserved
for dates and times is read as a date or a time, or not at all: values without such a table are read
as what they are (`decodeOption_self`), and of others a table is lost (`decodeOption_ok`).
-/

namespace ScrapeRelay

namespace Toml

def isNoNaN : Toml → Bool
  | .real value => !value.isNaN
  | _ => true

/-- Whether a value is no table that is read as a date or a time. -/
def isNoDatetime : Toml → Bool
  | .table entries => (dated? entries).isNone
  | _ => true

/-- Whether a value is no table that holds the key reserved for dates and times. -/
def lacksDatetimeKey : Toml → Bool
  | .table entries => !(entries.map Prod.fst).contains datetimeKey
  | _ => true

/-- No table of a value has the reserved key, so that the order of its entries does not matter. -/
def IsPlain (value : Toml) : Prop := every lacksDatetimeKey value = true

theorem lacksDatetimeKey_table_iff {entries : Entries} :
    (Toml.table entries).lacksDatetimeKey = true ↔ ∀ entry ∈ entries, entry.1 ≠ datetimeKey := by
  simp only [lacksDatetimeKey, Bool.not_eq_true', List.contains_eq_mem, decide_eq_false_iff_not,
    List.mem_map, not_exists, not_and]

/-- What stands in a plain array is plain. -/
theorem IsPlain.element {elements : List Toml} (plain : (Toml.array elements).IsPlain) :
    ∀ element ∈ elements, element.IsPlain :=
  (every_array_iff.mp plain).2

/-- What stands in a plain table is plain, also where a date or time is read as a table. -/
theorem IsPlain.entry {value : Toml} {entries : Entries} (plain : value.IsPlain)
    (found : value.entries? = some entries) : ∀ entry ∈ entries, entry.2.IsPlain := by
  cases value with
  | table inner =>
      obtain rfl := Option.some.inj found
      exact (every_table_iff.mp plain).2
  | datetime text =>
      obtain rfl := Option.some.inj found
      exact List.forall_mem_singleton.mpr rfl
  | _ => cases found

/-- A table of the entries of a plain one, changed and in any order, is plain. -/
theorem IsPlain.table {entries changed : Entries} (plain : (Toml.table entries).IsPlain)
    (change : Toml → Toml)
    (made : ∀ entry ∈ changed, ∃ old ∈ entries, entry = (old.1, change old.2))
    (each : ∀ old ∈ entries, old.2.IsPlain → (change old.2).IsPlain) :
    (Toml.table changed).IsPlain := by
  obtain ⟨lacks, inside⟩ := every_table_iff.mp plain
  refine every_table_iff.mpr ⟨lacksDatetimeKey_table_iff.mpr ?_, ?_⟩
  · intro entry member
    obtain ⟨old, listed, rfl⟩ := made entry member
    exact lacksDatetimeKey_table_iff.mp lacks old listed
  · intro entry member
    obtain ⟨old, listed, rfl⟩ := made entry member
    exact each old listed (inside old listed)

theorem IsPlain.sorted {value : Toml} (plain : value.IsPlain) : value.sorted.IsPlain := by
  induction value using nested with
  | array elements each =>
      rw [Toml.sorted, sortedElements_eq]
      exact every_array_iff.mpr ⟨rfl, List.forall_mem_map.mpr fun element member =>
        each element member (plain.element element member)⟩
  | table entries each =>
      exact plain.table Toml.sorted (fun _ member => exists_of_mem_sorted member) each
  | _ => exact plain

theorem IsPlain.written {inLine : Bool} {value : Toml} (plain : value.IsPlain) :
    (value.written inLine).IsPlain := by
  induction value using nested generalizing inLine with
  | array elements each =>
      rw [Toml.written, writtenElements_eq]
      exact every_array_iff.mpr ⟨rfl, List.forall_mem_map.mpr fun element member =>
        each element member (plain.element element member)⟩
  | table entries each =>
      refine plain.table (Toml.written inLine) (fun entry member => ?_) fun old listed =>
        each old listed
      rw [writtenEntries_eq] at member
      obtain ⟨old, listed, same⟩ := List.mem_map.mp ((layOut_perm _ _).mem_iff.mp member)
      exact ⟨old, listed, same.symm⟩
  | _ => exact plain

theorem equal_real {value : Binary64} (number : value.isNaN = false) :
    value.equal value = true := by
  simp [Binary64.equal, number]

mutual

/-- Only NaN keeps a value from being equal to itself. -/
theorem equal_self : (value : Toml) → every isNoNaN value = true → equal value value = true
  | .text _, _ => by simp [equal]
  | .integer _, _ => by simp [equal]
  | .real value, numbers => by
      simp only [every, isNoNaN, Bool.not_eq_true'] at numbers
      simpa [equal] using equal_real numbers
  | .bool _, _ => by simp [equal]
  | .datetime _, _ => by simp [equal]
  | .array elements, numbers => by
      simp only [every, isNoNaN, Bool.true_and] at numbers
      simpa [equal] using equalElements_self elements numbers
  | .table entries, numbers => by
      simp only [every, isNoNaN, Bool.true_and] at numbers
      simpa [equal] using equalEntries_self entries numbers

theorem equalElements_self :
    (elements : List Toml) → everyElement isNoNaN elements = true →
      equalElements elements elements = true
  | [], _ => rfl
  | element :: rest, numbers => by
      simp only [everyElement, Bool.and_eq_true] at numbers
      simp [equalElements, equal_self element numbers.1, equalElements_self rest numbers.2]

theorem equalEntries_self :
    (entries : Entries) → everyEntry isNoNaN entries = true → equalEntries entries entries = true
  | [], _ => rfl
  | (_, value) :: rest, numbers => by
      simp only [everyEntry, Bool.and_eq_true] at numbers
      simp [equalEntries, equal_self value numbers.1, equalEntries_self rest numbers.2]

end

mutual

/-- Equal values hold no NaN, and equally many tables. -/
theorem of_equal : (left right : Toml) → equal left right = true →
    every isNoNaN left = true ∧ left.tables = right.tables
  | .text _, right, same => by cases right <;> simp_all [equal, every, isNoNaN, tables]
  | .integer _, right, same => by cases right <;> simp_all [equal, every, isNoNaN, tables]
  | .real value, right, same => by
      cases right <;> simp_all [equal, every, isNoNaN, tables, Binary64.equal]
  | .bool _, right, same => by cases right <;> simp_all [equal, every, isNoNaN, tables]
  | .datetime _, right, same => by cases right <;> simp_all [equal, every, isNoNaN, tables]
  | .array elements, right, same => by
      cases right with
      | array others =>
          rw [equal] at same
          simpa [every, isNoNaN, tables] using of_equalElements elements others same
      | _ => simp [equal] at same
  | .table entries, right, same => by
      cases right with
      | table others =>
          rw [equal] at same
          simpa [every, isNoNaN, tables] using of_equalEntries entries others same
      | _ => simp [equal] at same

theorem of_equalElements : (lefts rights : List Toml) → equalElements lefts rights = true →
    everyElement isNoNaN lefts = true ∧ tablesInElements lefts = tablesInElements rights
  | [], [], _ => ⟨rfl, rfl⟩
  | [], _ :: _, same => by simp [equalElements] at same
  | _ :: _, [], same => by simp [equalElements] at same
  | left :: lefts, right :: rights, same => by
      simp only [equalElements, Bool.and_eq_true] at same
      obtain ⟨number, count⟩ := of_equal left right same.1
      obtain ⟨numbers, counts⟩ := of_equalElements lefts rights same.2
      simp [everyElement, tablesInElements, number, numbers, count, counts]

theorem of_equalEntries : (lefts rights : Entries) → equalEntries lefts rights = true →
    everyEntry isNoNaN lefts = true ∧ tablesInEntries lefts = tablesInEntries rights
  | [], [], _ => ⟨rfl, rfl⟩
  | [], _ :: _, same => by simp [equalEntries] at same
  | _ :: _, [], same => by simp [equalEntries] at same
  | (_, left) :: lefts, (_, right) :: rights, same => by
      simp only [equalEntries, Bool.and_eq_true] at same
      obtain ⟨number, count⟩ := of_equal left right same.1.2
      obtain ⟨numbers, counts⟩ := of_equalEntries lefts rights same.2
      simp [everyEntry, tablesInEntries, number, numbers, count, counts]

end

end Toml

namespace Config

open ScrapeRelay.Toml (Entries every everyElement everyEntry isNoDatetime tablesInElements
  tablesInEntries)

variable {skips : Bool}

mutual

theorem decodeOption_self :
    (value : Toml) → every isNoDatetime value = true → decodeOption skips value = .ok value
  | .text _, _ => by simp [decodeOption]
  | .integer _, _ => by simp [decodeOption]
  | .real _, _ => by simp [decodeOption]
  | .bool _, _ => by simp [decodeOption]
  | .datetime _, _ => by simp [decodeOption]
  | .array elements, tables => by
      simp only [every, isNoDatetime, Bool.true_and] at tables
      simp [decodeOption, decodeOptionElements_self elements tables, Except.map]
  | .table entries, tables => by
      simp only [every, isNoDatetime, Bool.and_eq_true, Option.isNone_iff_eq_none] at tables
      simp [decodeOption, tables.1, decodeOptions_self entries tables.2, Except.map]

theorem decodeOptionElements_self :
    (elements : List Toml) → everyElement isNoDatetime elements = true →
      decodeOptionElements skips elements = .ok elements
  | [], _ => by simp [decodeOptionElements]
  | element :: rest, tables => by
      simp only [everyElement, Bool.and_eq_true] at tables
      simp [decodeOptionElements, decodeOption_self element tables.1,
        decodeOptionElements_self rest tables.2, Except.map]

/-- Options are read as what they are. -/
theorem decodeOptions_self :
    (entries : Entries) → everyEntry isNoDatetime entries = true →
      decodeOptions skips entries = .ok entries
  | [], _ => by simp [decodeOptions]
  | (_, value) :: rest, tables => by
      simp only [everyEntry, Bool.and_eq_true] at tables
      simp [decodeOptions, decodeOption_self value tables.1, decodeOptions_self rest tables.2,
        Except.map]

end

theorem exists_of_map_ok {α β : Type} {decoded : Decoded α} {change : α → β} {result : β}
    (done : decoded.map change = .ok result) :
    ∃ value, decoded = .ok value ∧ change value = result := by
  cases decoded with
  | error fault => cases done
  | ok value => exact ⟨value, rfl, Except.ok.inj done⟩

theorem decodeDatetime_ok {value read : Toml} {rest : Entries}
    (done : decodeDatetime skips value rest = .ok read) : read.tables = 0 := by
  unfold decodeDatetime at done
  split at done
  · split at done
    · split at done
      · obtain rfl := Except.ok.inj done
        rfl
      · cases done
    · cases done
  · cases done

mutual

/-- An option is read as what it is, or a table of it is lost. -/
theorem decodeOption_ok : (value : Toml) → (read : Toml) → decodeOption skips value = .ok read →
    read = value ∧ every isNoDatetime value = true ∨ read.tables < value.tables
  | .text _, _, done => by simp_all [decodeOption, every, isNoDatetime]
  | .integer _, _, done => by simp_all [decodeOption, every, isNoDatetime]
  | .real _, _, done => by simp_all [decodeOption, every, isNoDatetime]
  | .bool _, _, done => by simp_all [decodeOption, every, isNoDatetime]
  | .datetime _, _, done => by simp_all [decodeOption, every, isNoDatetime]
  | .array elements, _, done => by
      rw [decodeOption] at done
      obtain ⟨found, read, rfl⟩ := exists_of_map_ok done
      obtain ⟨rfl, tables⟩ | fewer := decodeOptionElements_ok elements found read
      · exact .inl ⟨rfl, by simp [every, isNoDatetime, tables]⟩
      · exact .inr fewer
  | .table entries, _, done => by
      rw [decodeOption] at done
      split at done
      · exact .inr (by simp [decodeDatetime_ok done, Toml.tables])
      · rename_i plain
        obtain ⟨found, read, rfl⟩ := exists_of_map_ok done
        obtain ⟨rfl, tables⟩ | fewer := decodeOptions_ok entries found read
        · exact .inl ⟨rfl, by simp [every, isNoDatetime, plain, tables]⟩
        · exact .inr (Nat.succ_lt_succ fewer)

theorem decodeOptionElements_ok : (elements read : List Toml) →
    decodeOptionElements skips elements = .ok read →
    read = elements ∧ everyElement isNoDatetime elements = true ∨
      tablesInElements read < tablesInElements elements
  | [], _, done => by simp_all [decodeOptionElements, everyElement]
  | element :: rest, _, done => by
      rw [decodeOptionElements] at done
      split at done
      · rename_i first one
        obtain ⟨others, read, rfl⟩ := exists_of_map_ok done
        simp only [tablesInElements, everyElement, Bool.and_eq_true]
        obtain ⟨rfl, tables⟩ | fewer := decodeOption_ok element first one <;>
          obtain ⟨rfl, more⟩ | fewer' := decodeOptionElements_ok rest others read
        · exact .inl ⟨rfl, tables, more⟩
        all_goals exact .inr (by omega)
      · cases done

theorem decodeOptions_ok : (entries read : Entries) → decodeOptions skips entries = .ok read →
    read = entries ∧ everyEntry isNoDatetime entries = true ∨
      tablesInEntries read < tablesInEntries entries
  | [], _, done => by simp_all [decodeOptions, everyEntry]
  | (key, value) :: rest, _, done => by
      rw [decodeOptions] at done
      split at done
      · rename_i first one
        obtain ⟨others, read, rfl⟩ := exists_of_map_ok done
        simp only [tablesInEntries, everyEntry, Bool.and_eq_true]
        obtain ⟨rfl, tables⟩ | fewer := decodeOption_ok value first one <;>
          obtain ⟨rfl, more⟩ | fewer' := decodeOptions_ok rest others read
        · exact .inl ⟨rfl, tables, more⟩
        all_goals exact .inr (by omega)
      · cases done

end

/-- No table inside the options is written with the key first that is reserved for dates and
times. -/
def Provider.KeepsTables (provider : Provider) : Prop :=
  everyEntry isNoDatetime (Toml.writtenEntries false provider.options.entries) = true

instance (provider : Provider) : Decidable provider.KeepsTables :=
  inferInstanceAs (Decidable (everyEntry isNoDatetime
    (Toml.writtenEntries false provider.options.entries) = true))

def Provider.HasNoNaN (provider : Provider) : Prop :=
  everyEntry Toml.isNoNaN provider.options.entries = true

instance (provider : Provider) : Decidable provider.HasNoNaN :=
  inferInstanceAs (Decidable (everyEntry Toml.isNoNaN provider.options.entries = true))

end Config

end ScrapeRelay
