/-!
# Maps in key order

A map from strings to values, held as its entries in strictly ascending key
order. Strings are compared by code point, which is also the order of their
UTF-8 bytes. Two maps with the same look-ups have the same entries, so equality
of maps is equality of what they hold.
-/

namespace ScrapeRelay

structure SortedMap (α : Type) where
  entries : List (String × α)
  ascending : entries.Pairwise (fun left right => left.1 < right.1)
deriving DecidableEq

namespace SortedMap

variable {α β : Type}

def empty : SortedMap α := ⟨[], .nil⟩

instance : Inhabited (SortedMap α) := ⟨empty⟩

instance : EmptyCollection (SortedMap α) := ⟨empty⟩

/-- The value of the first entry with the given key. -/
def find (key : String) : List (String × α) → Option α
  | [] => none
  | entry :: rest => if entry.1 = key then some entry.2 else find key rest

/-- Put an entry at its place among ascending entries; an entry of the same key
gives way. -/
def place (key : String) (value : α) : List (String × α) → List (String × α)
  | [] => [(key, value)]
  | entry :: rest =>
      if entry.1 < key then entry :: place key value rest
      else if entry.1 = key then (key, value) :: rest
      else (key, value) :: entry :: rest

theorem mem_place {key : String} {value : α} {entries : List (String × α)}
    {entry : String × α} (member : entry ∈ place key value entries) :
    entry = (key, value) ∨ entry ∈ entries := by
  induction entries with
  | nil => simpa [place] using member
  | cons head rest ih =>
      unfold place at member
      split at member
      · rcases List.mem_cons.mp member with same | member
        · exact .inr (by simp [same])
        · exact (ih member).imp id (List.mem_cons_of_mem _)
      · split at member
        · rcases List.mem_cons.mp member with same | member
          · exact .inl same
          · exact .inr (List.mem_cons_of_mem _ member)
        · exact (List.mem_cons.mp member).imp id id

theorem place_ascending {key : String} {value : α} {entries : List (String × α)}
    (ascending : entries.Pairwise (fun left right => left.1 < right.1)) :
    (place key value entries).Pairwise (fun left right => left.1 < right.1) := by
  induction entries with
  | nil => simp [place]
  | cons head rest ih =>
      obtain ⟨first, tail⟩ := List.pairwise_cons.mp ascending
      unfold place
      split
      next less =>
        refine List.pairwise_cons.mpr ⟨fun entry member => ?_, ih tail⟩
        rcases mem_place member with same | member
        · rw [same]; exact less
        · exact first entry member
      next notLess =>
        split
        next same =>
          exact List.pairwise_cons.mpr ⟨fun entry member => same ▸ first entry member, tail⟩
        next different =>
          have less : key < head.1 :=
            Classical.byContradiction fun notGreater =>
              different
                (String.le_antisymm (String.not_lt.mp notGreater) (String.not_lt.mp notLess))
          refine List.pairwise_cons.mpr ⟨fun entry member => ?_, ascending⟩
          rcases List.mem_cons.mp member with same | member
          · rw [same]; exact less
          · exact String.lt_trans less (first entry member)

def get? (map : SortedMap α) (key : String) : Option α := find key map.entries

def contains (map : SortedMap α) (key : String) : Bool := (map.get? key).isSome

def insert (map : SortedMap α) (key : String) (value : α) : SortedMap α :=
  ⟨place key value map.entries, place_ascending map.ascending⟩

/-- Hold under a key what a function makes of the value there so far. -/
def update (map : SortedMap α) (key : String) (change : Option α → α) : SortedMap α :=
  map.insert key (change (map.get? key))

def filter (keep : String → α → Bool) (map : SortedMap α) : SortedMap α :=
  ⟨map.entries.filter (fun entry => keep entry.1 entry.2), map.ascending.filter _⟩

def erase (map : SortedMap α) (key : String) : SortedMap α :=
  map.filter (fun other _ => other ≠ key)

def map (change : String → α → β) (source : SortedMap α) : SortedMap β :=
  ⟨source.entries.map (fun entry => (entry.1, change entry.1 entry.2)),
    List.pairwise_map.mpr source.ascending⟩

def keys (map : SortedMap α) : List String := map.entries.map Prod.fst

def values (map : SortedMap α) : List α := map.entries.map Prod.snd

def size (map : SortedMap α) : Nat := map.entries.length

def isEmpty (map : SortedMap α) : Bool := map.entries.isEmpty

/-- Insert pairs from left to right, so that the last pair of a key counts. -/
def insertAll (map : SortedMap α) (pairs : List (String × α)) : SortedMap α :=
  pairs.foldl (fun held pair => held.insert pair.1 pair.2) map

def ofList (pairs : List (String × α)) : SortedMap α := insertAll empty pairs

theorem mem_insertAll {map : SortedMap α} {pairs : List (String × α)} {entry : String × α}
    (member : entry ∈ (map.insertAll pairs).entries) : entry ∈ map.entries ∨ entry ∈ pairs := by
  induction pairs generalizing map with
  | nil => exact .inl member
  | cons pair rest ih =>
      rcases ih member with held | listed
      · rcases mem_place held with same | held
        · exact .inr (same ▸ List.mem_cons_self)
        · exact .inl held
      · exact .inr (List.mem_cons_of_mem _ listed)

theorem mem_ofList {pairs : List (String × α)} {entry : String × α}
    (member : entry ∈ (ofList pairs).entries) : entry ∈ pairs :=
  (mem_insertAll member).resolve_left List.not_mem_nil

/-- All entries of both maps; where both hold a key the right one counts. -/
def union (left right : SortedMap α) : SortedMap α := left.insertAll right.entries

end SortedMap

end ScrapeRelay
