import ScrapeRelay.Toml

/-!
# Written tables

The entries of a table are written with plain values first, arrays that hold tables behind them, and
tables last. In a document an array of nothing but tables has headers, as a table has; it follows
the arrays that are written in a line. Inside a line there are no headers.
-/

namespace ScrapeRelay.Toml

/-- How far back in a written table a value stands. -/
def rank (inLine : Bool) : Toml → Nat
  | .table _ => 3
  | .array elements =>
      if !elements.any isTable then 0
      else if inLine || !elements.all isTable then 1
      else 2
  | _ => 0

def layOut (inLine : Bool) (entries : Entries) : Entries :=
  (List.range 4).flatMap (fun place =>
    entries.filter (fun entry => entry.2.rank inLine = place))

mutual

/-- A value as it is written. -/
def written (inLine : Bool) : Toml → Toml
  | .array elements =>
      .array (writtenElements (inLine || !elements.all isTable) elements)
  | .table entries => .table (layOut inLine (writtenEntries inLine entries))
  | value => value

def writtenElements (inLine : Bool) : List Toml → List Toml
  | [] => []
  | element :: rest => element.written inLine :: writtenElements inLine rest

def writtenEntries (inLine : Bool) : Entries → Entries
  | [] => []
  | (key, value) :: rest => (key, value.written inLine) :: writtenEntries inLine rest

end

end ScrapeRelay.Toml
