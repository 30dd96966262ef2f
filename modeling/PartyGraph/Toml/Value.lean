import PartyGraph.Toml.Moment

/-!
# Values of a configuration text

## Main definitions

* `Value`: the values.
* `Table`: keys with values, each key once.
* `Table.get?`, `Table.erase`: look-up and removal.
-/

namespace PartyGraph.Toml

/-- A value. Whole numbers have 64 bits with sign, others are held by the bits of their double
precision form, so that values can be compared and printed exactly. -/
inductive Value where
  | text (s : String)
  | integer (n : Int)
  | float (bits : UInt64)
  | truth (b : Bool)
  | moment (m : Moment)
  | array (items : List Value)
  | table (entries : List (String × Value))
deriving Repr

instance : Inhabited Value := ⟨.truth false⟩

/-- Keys with values, each key once, in the order in which the text made them. -/
abbrev Table := List (String × Value)

namespace Table

/-- The value under a key. -/
def get? (t : Table) (key : String) : Option Value := List.lookup key t

/-- The table without the keys listed. -/
def erase (t : Table) (keys : List String) : Table := t.filter fun e => !keys.contains e.1

end Table

end PartyGraph.Toml
