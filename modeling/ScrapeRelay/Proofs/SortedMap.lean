import Mathlib.Data.List.Sort
import ScrapeRelay.SortedMap

namespace ScrapeRelay.SortedMap

variable {α β : Type} {map : SortedMap α} {key other : String} {value : α}
  {entries pairs : List (String × α)}

theorem mem_of_find (found : find key entries = some value) : (key, value) ∈ entries := by
  induction entries with
  | nil => simp [find] at found
  | cons entry rest ih =>
      simp only [find] at found
      split at found
      · rename_i same
        obtain rfl := Option.some.inj found
        subst same
        exact List.mem_cons_self
      · exact List.mem_cons_of_mem entry (ih found)

theorem find_of_mem (ascending : entries.Pairwise (fun left right => left.1 < right.1))
    (member : (key, value) ∈ entries) : find key entries = some value := by
  induction entries with
  | nil => simp at member
  | cons entry rest ih =>
      obtain ⟨first, tail⟩ := List.pairwise_cons.mp ascending
      simp only [find]
      rcases List.mem_cons.mp member with same | member
      · subst same
        simp
      · have different : entry.1 ≠ key := by
          intro same
          have less := first (key, value) member
          rw [same] at less
          exact String.lt_irrefl key less
        rw [if_neg different]
        exact ih tail member

theorem get?_eq_some_iff : map.get? key = some value ↔ (key, value) ∈ map.entries :=
  ⟨mem_of_find, find_of_mem map.ascending⟩

theorem ext_entries {left right : SortedMap α} (same : left.entries = right.entries) :
    left = right := by
  cases left
  cases right
  exact (mk.injEq ..).mpr same

/-- Maps with the same look-ups are equal. -/
theorem ext_get? {left right : SortedMap α} (same : ∀ key, left.get? key = right.get? key) :
    left = right := by
  have irrefl : Std.Irrefl (fun left right : String × α => left.1 < right.1) :=
    ⟨fun entry => String.lt_irrefl entry.1⟩
  have antisymm : Std.Antisymm (fun left right : String × α => left.1 < right.1) :=
    ⟨fun left right before after => absurd (String.lt_trans before after)
      (String.lt_irrefl left.1)⟩
  refine ext_entries (left.ascending.eq_of_mem_iff right.ascending ?_)
  rintro ⟨key, value⟩
  rw [← get?_eq_some_iff, ← get?_eq_some_iff, same]

theorem find_place_self : find key (place key value entries) = some value := by
  induction entries with
  | nil => simp [place, find]
  | cons entry rest ih =>
      unfold place
      split
      · rename_i less
        have different : entry.1 ≠ key := by
          intro same
          rw [same] at less
          exact String.lt_irrefl key less
        simp [find, different, ih]
      · split <;> simp [find]

theorem find_place_of_ne (different : other ≠ key) :
    find other (place key value entries) = find other entries := by
  induction entries with
  | nil => simp [place, find, different.symm]
  | cons entry rest ih =>
      unfold place
      split
      · simp only [find, ih]
      · split
        · rename_i same
          have apart : entry.1 ≠ other := fun equal => different (equal.symm.trans same)
          simp [find, different.symm, apart]
        · simp [find, different.symm]

@[simp] theorem get?_empty : (empty : SortedMap α).get? key = none := rfl

@[simp] theorem get?_insert_self : (map.insert key value).get? key = some value :=
  find_place_self

theorem get?_insert_of_ne (different : other ≠ key) :
    (map.insert key value).get? other = map.get? other :=
  find_place_of_ne different

theorem get?_insert (map : SortedMap α) (key : String) (value : α) (other : String) :
    (map.insert key value).get? other = if other = key then some value else map.get? other := by
  split
  · rename_i same
    rw [same, get?_insert_self]
  · rename_i different
    exact get?_insert_of_ne different

theorem find_filter (keep : String → α → Bool) (distinct : (entries.map Prod.fst).Nodup) :
    find key (entries.filter (fun entry => keep entry.1 entry.2)) =
      (find key entries).filter (keep key) := by
  induction entries with
  | nil => rfl
  | cons entry rest ih =>
      obtain ⟨fresh, distinct⟩ := List.nodup_cons.mp distinct
      by_cases same : entry.1 = key
      · subst same
        have absent : find entry.1 rest = none := by
          cases found : find entry.1 rest with
          | none => rfl
          | some value => exact absurd (List.mem_map_of_mem (mem_of_find found)) fresh
        by_cases kept : keep entry.1 entry.2 = true
        · simp [kept, find, Option.filter]
        · simp [kept, find, Option.filter, ih distinct, absent]
      · by_cases kept : keep entry.1 entry.2 = true <;>
          simp [kept, find, same, ih distinct]

theorem get?_insertAll_of_not_mem (absent : key ∉ pairs.map Prod.fst) :
    (map.insertAll pairs).get? key = map.get? key := by
  induction pairs generalizing map with
  | nil => rfl
  | cons pair rest ih =>
      simp only [List.map_cons, List.mem_cons, not_or] at absent
      calc ((map.insert pair.1 pair.2).insertAll rest).get? key
        _ = (map.insert pair.1 pair.2).get? key := ih absent.2
        _ = map.get? key := get?_insert_of_ne absent.1

theorem get?_insertAll_of_mem (distinct : (pairs.map Prod.fst).Nodup)
    (member : (key, value) ∈ pairs) : (map.insertAll pairs).get? key = some value := by
  induction pairs generalizing map with
  | nil => simp at member
  | cons pair rest ih =>
      obtain ⟨fresh, distinct⟩ := List.nodup_cons.mp distinct
      rcases List.mem_cons.mp member with same | member
      · subst same
        calc ((map.insert key value).insertAll rest).get? key
          _ = (map.insert key value).get? key := get?_insertAll_of_not_mem fresh
          _ = some value := get?_insert_self
      · exact ih distinct member

/-- A map made of pairs without repeated keys holds exactly these pairs. -/
theorem get?_ofList_eq_some_iff (distinct : (pairs.map Prod.fst).Nodup) :
    (ofList pairs).get? key = some value ↔ (key, value) ∈ pairs := by
  constructor
  · intro found
    by_cases present : key ∈ pairs.map Prod.fst
    · obtain ⟨⟨name, held⟩, member, rfl⟩ := List.mem_map.mp present
      have stored : (empty.insertAll pairs).get? name = some held :=
        get?_insertAll_of_mem distinct member
      rw [ofList, stored] at found
      obtain rfl := Option.some.inj found
      exact member
    · rw [ofList, get?_insertAll_of_not_mem present] at found
      simp at found
  · exact get?_insertAll_of_mem distinct

theorem nodup_keys (map : SortedMap α) : (map.entries.map Prod.fst).Nodup := by
  refine List.pairwise_map.mpr (map.ascending.imp ?_)
  intro left right less same
  rw [same] at less
  exact String.lt_irrefl _ less

/-- A map is made of its entries, in any order. -/
theorem ofList_of_perm (same : pairs.Perm map.entries) : ofList pairs = map := by
  have distinct : (pairs.map Prod.fst).Nodup := (same.map Prod.fst).nodup_iff.mpr map.nodup_keys
  refine ext_get? fun key => Option.ext fun value => ?_
  rw [get?_ofList_eq_some_iff distinct, same.mem_iff, get?_eq_some_iff]

theorem ofList_entries (map : SortedMap α) : ofList map.entries = map := ofList_of_perm (.refl _)

theorem get?_union (left right : SortedMap α) (key : String) :
    (left.union right).get? key = (right.get? key).or (left.get? key) := by
  cases held : right.get? key with
  | some value =>
      exact get?_insertAll_of_mem right.nodup_keys (get?_eq_some_iff.mp held)
  | none =>
      refine get?_insertAll_of_not_mem fun present => ?_
      obtain ⟨entry, member, rfl⟩ := List.mem_map.mp present
      rw [get?_eq_some_iff.mpr member] at held
      cases held

theorem get?_filter (keep : String → α → Bool) (map : SortedMap α) (key : String) :
    (map.filter keep).get? key = (map.get? key).filter (keep key) :=
  find_filter keep map.nodup_keys

theorem get?_map (change : String → α → β) (map : SortedMap α) (key : String) :
    (map.map change).get? key = (map.get? key).map (change key) := by
  cases held : map.get? key with
  | some value =>
      refine get?_eq_some_iff.mpr ?_
      exact List.mem_map.mpr ⟨(key, value), get?_eq_some_iff.mp held, rfl⟩
  | none =>
      cases found : (map.map change).get? key with
      | none => rfl
      | some value =>
          obtain ⟨entry, member, same⟩ := List.mem_map.mp (get?_eq_some_iff.mp found)
          obtain ⟨rfl, _⟩ := Prod.mk.inj same
          rw [get?_eq_some_iff.mpr member] at held
          cases held

/-- A map that holds a value under each of some names. -/
theorem get?_ofList_map (names : List String) (value : String → α) (key : String) :
    (ofList (names.map (fun name => (name, value name)))).get? key =
      if key ∈ names then some (value key) else none := by
  suffices started : ∀ map : SortedMap α,
      (map.insertAll (names.map (fun name => (name, value name)))).get? key =
        if key ∈ names then some (value key) else map.get? key from started .empty
  induction names with
  | nil => intro map; rfl
  | cons name rest ih =>
      intro map
      have step := ih (map.insert name (value name))
      by_cases same : key = name
      · subst same
        simpa [insertAll] using step
      · simpa [insertAll, same, get?_insert_of_ne same] using step

theorem mem_keys_iff : key ∈ map.keys ↔ (map.get? key).isSome = true := by
  rw [Option.isSome_iff_exists]
  constructor
  · intro member
    obtain ⟨entry, held, rfl⟩ := List.mem_map.mp member
    exact ⟨entry.2, get?_eq_some_iff.mpr held⟩
  · rintro ⟨value, found⟩
    exact List.mem_map.mpr ⟨(key, value), get?_eq_some_iff.mp found, rfl⟩

theorem keys_ascending (map : SortedMap α) : map.keys.Pairwise (· < ·) :=
  List.pairwise_map.mpr map.ascending

/-- Maps that hold something under the same keys have the same keys in the same order. -/
theorem keys_congr {left : SortedMap α} {right : SortedMap β}
    (same : ∀ key, (left.get? key).isSome = (right.get? key).isSome) : left.keys = right.keys := by
  have irrefl : Std.Irrefl (fun left right : String => left < right) := ⟨String.lt_irrefl⟩
  have antisymm : Std.Antisymm (fun left right : String => left < right) :=
    ⟨fun left right before after => absurd (String.lt_trans before after) (String.lt_irrefl left)⟩
  apply left.keys_ascending.eq_of_mem_iff right.keys_ascending
  intro key
  rw [mem_keys_iff, mem_keys_iff, same]

/-- A map made of pairs without repeated keys has one entry for each pair. -/
theorem keys_ofList_perm (distinct : (pairs.map Prod.fst).Nodup) :
    (ofList pairs).keys.Perm (pairs.map Prod.fst) := by
  apply (List.perm_ext_iff_of_nodup (nodup_keys _) distinct).mpr
  intro key
  change key ∈ (ofList pairs).keys ↔ _
  simp only [mem_keys_iff, Option.isSome_iff_exists, get?_ofList_eq_some_iff distinct, List.mem_map]
  constructor
  · intro ⟨value, member⟩
    exact ⟨(key, value), member, rfl⟩
  · intro ⟨pair, member, same⟩
    exact ⟨pair.2, same ▸ member⟩

theorem values_eq_map_keys (map : SortedMap α) (default : α) :
    map.values = map.keys.map (fun key => (map.get? key).getD default) := by
  rw [values, keys, List.map_map]
  refine List.map_congr_left ?_
  intro entry member
  rw [Function.comp_apply, get?_eq_some_iff.mpr member, Option.getD_some]

/-- A filter drops as many entries as there are keys that the filtered map lacks. -/
theorem size_sub_size_filter (keep : String → α → Bool) (map : SortedMap α) :
    map.size - (map.filter keep).size =
      (map.keys.filter (fun key => key ∉ (map.filter keep).keys)).length := by
  have dropped : ∀ entry ∈ map.entries,
      (!keep entry.1 entry.2) = decide (entry.1 ∉ (map.filter keep).keys) := by
    intro entry member
    have kept : entry.1 ∈ (map.filter keep).keys ↔ keep entry.1 entry.2 = true := by
      rw [mem_keys_iff, get?_filter, get?_eq_some_iff.mpr member]
      cases keeps : keep entry.1 entry.2 <;> simp [Option.filter, keeps]
    simp [kept]
  have counted : (map.keys.filter (fun key => key ∉ (map.filter keep).keys)).length =
      (map.entries.filter (fun entry => !keep entry.1 entry.2)).length := by
    rw [List.filter_congr dropped]
    exact (congrArg List.length List.filter_map).trans (List.length_map _)
  have split := List.length_eq_length_filter_add (l := map.entries)
    (fun entry => keep entry.1 entry.2)
  rw [counted]
  exact Nat.sub_eq_of_eq_add' split

theorem flatten_values_filter (map : SortedMap (List α)) :
    (map.filter (fun _ items => !items.isEmpty)).values.flatten = map.values.flatten := by
  have kept : (map.filter (fun _ items => !items.isEmpty)).values =
      map.values.filter (fun items => !items.isEmpty) := by
    rw [values, values, List.filter_map]
    rfl
  rw [kept, List.flatten_filter_not_isEmpty]

/-- An empty list under a key makes no difference to the lists put together. -/
theorem flatten_values_congr {left right : SortedMap (List α)}
    (same : ∀ key, (left.get? key).getD [] = (right.get? key).getD []) :
    left.values.flatten = right.values.flatten := by
  have shown (map : SortedMap (List α)) (key : String) :
      (map.filter (fun _ items => !items.isEmpty)).get? key =
        (some ((map.get? key).getD [])).filter (fun items => !items.isEmpty) := by
    rw [get?_filter]
    cases map.get? key <;> rfl
  have equal : left.filter (fun _ items => !items.isEmpty) =
      right.filter (fun _ items => !items.isEmpty) := by
    refine ext_get? fun key => ?_
    rw [shown, shown, same]
  rw [← flatten_values_filter, equal, flatten_values_filter]

/-- The lists under all keys are those under any names that include the keys. -/
theorem flatten_values_perm {map : SortedMap (List α)} {names : List String}
    (distinct : names.Nodup) (covered : ∀ key ∈ map.keys, key ∈ names) :
    map.values.flatten.Perm (names.flatMap fun name => (map.get? name).getD []) := by
  let filled := ofList (names.map fun name => (name, (map.get? name).getD []))
  have held (key : String) : (filled.get? key).getD [] = (map.get? key).getD [] := by
    rw [get?_ofList_map]
    split
    · rfl
    · rename_i foreign
      have absent := mt (covered key) foreign
      rw [mem_keys_iff, Option.not_isSome_iff_eq_none] at absent
      rw [absent]
  have named : (names.map fun name => (name, (map.get? name).getD [])).map Prod.fst = names := by
    rw [List.map_map]
    exact List.map_id names
  have keys : filled.keys.Perm names := by
    have made := keys_ofList_perm (named.symm ▸ distinct)
    rwa [named] at made
  rw [flatten_values_congr fun key => (held key).symm, filled.values_eq_map_keys [],
    ← List.flatMap_def]
  simp only [held]
  exact keys.flatMap_right _

end ScrapeRelay.SortedMap
