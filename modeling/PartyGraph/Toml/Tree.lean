import PartyGraph.Toml.Value

/-!
# Tables under construction

While a text is read, its tables are still open: dotted keys and headers add to them, and whether
they may depends on how a table came about. A value is closed, a table within it too.

## Main definitions

* `Node`: a value or an open table, or the open tables of an array of tables.
* `Node.insert`: adds a value under a dotted key.
* `Node.openTable`, `Node.openItem`: what headers do.
* `Node.toValue`: the tables closed.
-/

namespace PartyGraph.Toml

/-- How a table came about. -/
inductive TableOrigin where
  /-- By a header of its own. -/
  | header
  /-- By the header of a table in it. -/
  | innerHeader
  /-- By a dotted key. -/
  | dottedKey
deriving DecidableEq, Repr

/-- A part of a tree under construction. -/
inductive Node where
  | value (v : Value)
  | table (origin : TableOrigin) (entries : List (String × Node))
  | tables (items : List (List (String × Node)))

namespace Node

/-- The entries of a table under construction. -/
abbrev Entries := List (String × Node)

/-- The entries with another node under a key that has one. -/
def replace (t : Entries) (key : String) (n : Node) : Entries :=
  t.map fun e => if e.1 = key then (key, n) else e

/-- Changes the table that a path leads to, starting at a table of some origin. The last table of an
array of tables stands for the array. Tables on the way that do not exist are made; when the way is
that of a dotted key, it leads through no table that has a header. -/
def within (dotted : Bool) (change : TableOrigin → Entries → Option Entries)
    (origin : TableOrigin) (t : Entries) : List String → Option Entries
  | [] => change origin t
  | key :: path =>
    match List.lookup key t with
    | none =>
      let made := if dotted then .dottedKey else .innerHeader
      match within dotted change made [] path with
      | none => none
      | some inner => some (t ++ [(key, .table made inner)])
    | some (.value _) => none
    | some (.table origin inner) =>
      if dotted && origin = .header then none
      else match within dotted change origin inner path with
        | none => none
        | some inner => some (replace t key (.table origin inner))
    | some (.tables items) =>
      match within dotted change .header (items.getLast?.getD []) path with
      | none => none
      | some inner => some (replace t key (.tables (items.dropLast ++ [inner])))

/-- Adds a value under a key after a path, which are those of a dotted key unless the path is
empty. -/
def insert (path : List String) (key : String) (v : Value) (origin : TableOrigin) (t : Entries) :
    Option Entries :=
  within true
    (fun origin t =>
      if (decide (origin = .dottedKey)) = path.isEmpty then none
      else if (List.lookup key t).isSome then none
      else some (t ++ [(key, .value v)]))
    origin t path

/-- Opens the table of a header: a new one, or one that only tables in it have made. Either way it
stands behind all that its owner holds already. -/
def openTable (path : List String) (key : String) (root : Entries) : Option Entries :=
  within false
    (fun _ t =>
      match List.lookup key t with
      | none => some (t ++ [(key, .table .header [])])
      | some (.table .innerHeader inner) =>
        some (t.filter (fun e => e.1 ≠ key) ++ [(key, .table .header inner)])
      | some _ => none)
    .header root path

/-- Opens the next table of an array of tables. -/
def openItem (path : List String) (key : String) (root : Entries) : Option Entries :=
  within false
    (fun _ t =>
      match List.lookup key t with
      | none => some (t ++ [(key, .tables [[]])])
      | some (.tables items) => some (replace t key (.tables (items ++ [[]])))
      | some _ => none)
    .header root path

mutual

/-- The value that a finished node stands for. -/
def toValue : Node → Value
  | value v => v
  | table _ entries => .table (toTable entries)
  | tables items => .array (toValues items)

/-- The table that finished entries stand for. -/
def toTable : Entries → Table
  | [] => []
  | (key, n) :: rest => (key, n.toValue) :: toTable rest

/-- The values that finished tables stand for. -/
def toValues : List Entries → List Value
  | [] => []
  | t :: rest => .table (toTable t) :: toValues rest

end

end Node

end PartyGraph.Toml
