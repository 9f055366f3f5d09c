import ScrapeRelay.Toml.Lexeme

/-!
# TOML documents

A document is read line by line into a tree of tables. A table remembers how it
came about, because that decides which later lines may still add to it: a table
that only stood on the way to another one may get a header of its own once, and
one made by a dotted key may only be extended by dotted keys under the same
header.
-/

namespace ScrapeRelay.Toml

mutual

inductive Item where
  | value (value : Toml)
  | table (branch : Section)
  | tables (elements : List Section)

/-- A table that may still grow. It is implicit while no header names it, and
dotted if a dotted key made it. -/
inductive Section where
  | mk (isImplicit isDotted : Bool) (items : List (String × Item))

end

namespace Section

def isImplicit : Section → Bool
  | mk isImplicit _ _ => isImplicit

def isDotted : Section → Bool
  | mk _ isDotted _ => isDotted

def items : Section → List (String × Item)
  | mk _ _ items => items

def headed (items : List (String × Item)) : Section := mk false false items

def lookup (key : String) : List (String × Item) → Option Item
  | [] => none
  | (name, item) :: rest => if name = key then some item else lookup key rest

def replace (key : String) (item : Item) : List (String × Item) → List (String × Item)
  | [] => []
  | (name, old) :: rest =>
      if name = key then (name, item) :: rest else (name, old) :: replace key item rest

def get? (branch : Section) (key : String) : Option Item := lookup key branch.items

def add (branch : Section) (key : String) (item : Item) : Section :=
  mk branch.isImplicit branch.isDotted (branch.items ++ [(key, item)])

def set (branch : Section) (key : String) (item : Item) : Section :=
  mk branch.isImplicit branch.isDotted (replace key item branch.items)

def remove (branch : Section) (key : String) : Section :=
  mk branch.isImplicit branch.isDotted (branch.items.filter (fun item => item.1 ≠ key))

/-- Change the table that a path leads to, and make the tables that are missing on
the way. The last element stands for an array of tables. Through a dotted key no
table is reached that has a header. -/
def descend {α : Type} (dotted : Bool) (change : Section → Option (Section × α)) :
    List String → Section → Option (Section × α)
  | [], branch => change branch
  | key :: path, branch =>
      match branch.get? key with
      | none =>
          match descend dotted change path (mk true dotted []) with
          | some (made, result) => some (branch.add key (.table made), result)
          | none => none
      | some (.value _) => none
      | some (.tables elements) =>
          match elements.getLast? with
          | none => none
          | some last =>
              match descend dotted change path last with
              | some (changed, result) =>
                  some (branch.set key (.tables (elements.dropLast ++ [changed])), result)
              | none => none
      | some (.table inner) =>
          if dotted && !inner.isImplicit then none
          else
            match descend dotted change path inner with
            | some (changed, result) => some (branch.set key (.table changed), result)
            | none => none

def assign (path : List String) (key : String) (value : Toml) (branch : Section) :
    Option Section :=
  let change (inner : Section) : Option (Section × Unit) :=
    if inner.isDotted = path.isEmpty then none
    else
      match inner.get? key with
      | some _ => none
      | none => some (inner.add key (.value value), ())
  (descend true change path branch).map Prod.fst

end Section

mutual

def Item.toToml : Item → Toml
  | .value value => value
  | .table branch => .table branch.toEntries
  | .tables elements => .array (tablesToToml elements)

def Section.toEntries : Section → List (String × Toml)
  | .mk _ _ items => itemsToToml items

def tablesToToml : List Section → List Toml
  | [] => []
  | branch :: rest => .table branch.toEntries :: tablesToToml rest

def itemsToToml : List (String × Item) → List (String × Toml)
  | [] => []
  | (key, item) :: rest => (key, item.toToml) :: itemsToToml rest

end

/-- Add a pair to the entries of an inline table. A dotted key makes tables that
only dotted keys of the same inline table extend. -/
def assignAll (pairs : List (List String × Toml)) (branch : Section) : Option Section :=
  match pairs with
  | [] => some branch
  | (path, value) :: rest =>
      match path.getLast? with
      | none => none
      | some key =>
          match branch.assign path.dropLast key value with
          | some branch => assignAll rest branch
          | none => none

def depthLimit : Nat := 80

mutual

/-- A value. The room is how many levels of nesting may still follow. -/
def value? (fuel room : Nat) (input : List Char) : Option (Toml × List Char) :=
  match fuel with
  | 0 => none
  | fuel + 1 =>
      match input with
      | [] => none
      | c :: rest =>
          if c = '\x22' || c = '\x27' then
            (string? input).map (fun found => (.text found.1, found.2))
          else if c = '[' then
            match room with
            | 0 => none
            | room + 1 =>
                (elements? fuel room rest).map (fun found => (.array found.1, found.2))
          else if c = '\x7b' then
            match room with
            | 0 => none
            | room + 1 =>
                match skipSpace rest with
                | '\x7d' :: rest => some (.table [], rest)
                | rest =>
                    match pairs? fuel room rest with
                    | none => none
                    | some (pairs, rest) =>
                        (assignAll pairs (.headed [])).map
                          (fun branch => (.table branch.toEntries, rest))
          else if c = '+' || c = '-' || Text.isDigit c then numeric? input
          else
            match input with
            | 't' :: 'r' :: 'u' :: 'e' :: rest => some (.bool true, rest)
            | 'f' :: 'a' :: 'l' :: 's' :: 'e' :: rest => some (.bool false, rest)
            | _ => special? input

def elements? (fuel room : Nat) (input : List Char) : Option (List Toml × List Char) :=
  match fuel with
  | 0 => none
  | fuel + 1 =>
      match skipLines (input.length + 1) input with
      | ']' :: rest => some ([], rest)
      | input =>
          match value? fuel room input with
          | none => none
          | some (first, rest) =>
              match skipLines (rest.length + 1) rest with
              | ']' :: rest => some ([first], rest)
              | ',' :: rest =>
                  (elements? fuel room rest).map (fun found => (first :: found.1, found.2))
              | _ => none

/-- The pairs of an inline table up to its closing brace; there is at least one. -/
def pairs? (fuel room : Nat) (input : List Char) :
    Option (List (List String × Toml) × List Char) :=
  match fuel with
  | 0 => none
  | fuel + 1 =>
      match key? (input.length + 1) input with
      | some (path, '=' :: rest) =>
          if depthLimit ≤ path.length then none
          else
            match value? fuel room (skipSpace rest) with
            | none => none
            | some (value, rest) =>
                match skipSpace rest with
                | '\x7d' :: rest => some ([(path, value)], rest)
                | ',' :: rest =>
                    (pairs? fuel room rest).map (fun found => ((path, value) :: found.1, found.2))
                | _ => none
      | _ => none

end

/-- The tree so far and the table that lines are added to. The table joins the
tree when the next header comes. -/
structure Growth where
  root : Section
  current : Section
  /-- The path of the current table; none of the lines before the first header. -/
  path : List String
  /-- Whether the current table is a new element of an array of tables. -/
  isElement : Bool

namespace Growth

def start : Growth := ⟨.headed [], .headed [], [], false⟩

def join (growth : Growth) : Option Section :=
  match growth.path.getLast? with
  | none => some growth.current
  | some key =>
      let change (parent : Section) : Option (Section × Unit) :=
        if growth.isElement then
          match parent.get? key with
          | none => some (parent.add key (.tables [growth.current]), ())
          | some (.tables elements) =>
              some (parent.set key (.tables (elements ++ [growth.current])), ())
          | some _ => none
        else
          match parent.get? key with
          | none => some (parent.add key (.table growth.current), ())
          | some _ => none
      (Section.descend false change growth.path.dropLast growth.root).map Prod.fst

/-- Open the table of a header. One that stood on the way to another table goes
on with what it holds. -/
def openTable (growth : Growth) (path : List String) : Option Growth :=
  match growth.join, path.getLast? with
  | some root, some key =>
      let change (parent : Section) : Option (Section × List (String × Item)) :=
        match parent.get? key with
        | none => some (parent, [])
        | some (.table branch) =>
            if branch.isImplicit && !branch.isDotted then some (parent.remove key, branch.items)
            else none
        | some _ => none
      match Section.descend false change path.dropLast root with
      | some (root, items) => some ⟨root, .headed items, path, false⟩
      | none => none
  | _, _ => none

def openElement (growth : Growth) (path : List String) : Option Growth :=
  match growth.join, path.getLast? with
  | some root, some key =>
      let change (parent : Section) : Option (Section × Unit) :=
        match parent.get? key with
        | none => some (parent.add key (.tables []), ())
        | some (.tables _) => some (parent, ())
        | some _ => none
      match Section.descend false change path.dropLast root with
      | some (root, _) => some ⟨root, .headed [], path, true⟩
      | none => none
  | _, _ => none

def assign (growth : Growth) (path : List String) (value : Toml) : Option Growth :=
  match path.getLast? with
  | none => none
  | some key =>
      (growth.current.assign path.dropLast key value).map
        (fun current => { growth with current := current })

end Growth

def boundedKey? (input : List Char) : Option (List String × List Char) :=
  match key? (input.length + 1) input with
  | some (path, rest) => if depthLimit ≤ path.length then none else some (path, rest)
  | none => none

def line? (growth : Growth) (input : List Char) : Option (Growth × List Char) :=
  let finish (grown : Option Growth) (rest : List Char) : Option (Growth × List Char) :=
    match grown, lineEnd? rest with
    | some growth, some rest => some (growth, rest)
    | _, _ => none
  match input with
  | '[' :: '[' :: rest =>
      match boundedKey? rest with
      | some (path, ']' :: ']' :: rest) => finish (growth.openElement path) rest
      | _ => none
  | '[' :: rest =>
      match boundedKey? rest with
      | some (path, ']' :: rest) => finish (growth.openTable path) rest
      | _ => none
  | input =>
      match boundedKey? input with
      | some (path, '=' :: rest) =>
          let rest := skipSpace rest
          match value? (2 * rest.length + 2) (depthLimit - 1) rest with
          | some (value, rest) => finish (growth.assign path value) rest
          | none => none
      | _ => none

def lines? (fuel : Nat) (growth : Growth) (input : List Char) : Option Growth :=
  match fuel with
  | 0 => none
  | fuel + 1 =>
      match skipSpace input with
      | [] => some growth
      | '#' :: rest =>
          match lineEnd? ('#' :: rest) with
          | some rest => lines? fuel growth rest
          | none => none
      | input =>
          match newline? input with
          | some rest => lines? fuel growth rest
          | none =>
              match line? growth input with
              | some (growth, rest) => lines? fuel growth rest
              | none => none

def parse? (source : String) : Option Entries :=
  let input := match source.toList with
    | '\ufeff' :: rest => rest
    | other => other
  match lines? (input.length + 1) .start input with
  | some growth => growth.join.map Section.toEntries
  | none => none

end ScrapeRelay.Toml
