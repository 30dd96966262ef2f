import PartyGraph.Text.Notation
import PartyGraph.Text.Quoted

/-!
# Memory shared by jobs

The jobs of a run share a memory of named values. A value has a kind and is found only by those
who ask for that kind.

## Main definitions

* `Memory`: the named values, with `get?`, `insert`, `remove` and `update`.
* `Memory.Request`, `Memory.perform`: the operations as data.

## Main results

* `get?_insert_same`, `get?_insert_of_ne`: what an insertion changes.
-/

namespace PartyGraph

namespace Memory

/-- The kinds of values. -/
inductive Kind where
  | integer
  | text
  | list
  | truth
deriving DecidableEq, Repr

/-- The values of a kind. -/
abbrev Kind.Carrier : Kind → Type
  | integer => Int
  | text => String
  | list => List String
  | truth => Bool

/-- The value that an update starts from when there is none. -/
def Kind.initial : (k : Kind) → k.Carrier
  | integer => (0 : Int)
  | text => ""
  | list => []
  | truth => false

/-- A value with its kind. -/
structure Slot where
  kind : Kind
  value : kind.Carrier

/-- The value of a slot, for those who ask for its kind. -/
def Slot.as? (s : Slot) (k : Kind) : Option k.Carrier :=
  if h : s.kind = k then some (h ▸ s.value) else none

@[simp] theorem Slot.as?_mk (k : Kind) (v : k.Carrier) : Slot.as? ⟨k, v⟩ k = some v := by
  simp [Slot.as?]

end Memory

/-- Named values; the first entry under a name counts. -/
structure Memory where
  slots : List (String × Memory.Slot)

namespace Memory

/-- The memory without values. -/
def empty : Memory := ⟨[]⟩

instance : Inhabited Memory := ⟨empty⟩

/-- The slot under a name. -/
def slot? (m : Memory) (key : String) : Option Slot := List.lookup key m.slots

/-- Whether there is a value of any kind under a name. -/
def contains (m : Memory) (key : String) : Bool := (m.slot? key).isSome

/-- The value of a kind under a name. -/
def get? (m : Memory) (k : Kind) (key : String) : Option k.Carrier :=
  (m.slot? key).bind fun s => s.as? k

/-- The memory without the value under a name. -/
def erase (m : Memory) (key : String) : Memory := ⟨m.slots.filter fun e => e.1 != key⟩

/-- The memory with a value under a name, whatever was there. -/
def insert (m : Memory) (key : String) (s : Slot) : Memory := ⟨(key, s) :: (m.erase key).slots⟩

/-- The value of a kind under a name, and the memory without it. A value of another kind stays. -/
def remove (m : Memory) (k : Kind) (key : String) : Option k.Carrier × Memory :=
  match m.get? k key with
  | some v => (some v, m.erase key)
  | none => (none, m)

/-- Changes the value of a kind under a name, which is created first when there is none. Nothing
happens when the name has a value of another kind. -/
def update {α : Type} (m : Memory) (k : Kind) (key : String)
    (change : k.Carrier → k.Carrier × α) : Option α × Memory :=
  match m.slot? key with
  | none =>
    let (v, a) := change k.initial
    (some a, m.insert key ⟨k, v⟩)
  | some s =>
    match s.as? k with
    | none => (none, m)
    | some old =>
      let (v, a) := change old
      (some a, m.insert key ⟨k, v⟩)

/-- Number of values. -/
def size (m : Memory) : Nat := m.slots.length

/-- The names in ascending order. -/
def keys (m : Memory) : List String := (m.slots.map (·.1)).mergeSort fun a b => decide (a ≤ b)

/-- Form of a memory: its names. -/
def form (m : Memory) : String :=
  Text.record "Memory" [("keys", Text.listed (m.keys.map Text.quoted))]

theorem slot?_insert_same (m : Memory) (key : String) (s : Slot) :
    (m.insert key s).slot? key = some s := by
  simp [slot?, insert]

theorem get?_insert_same (m : Memory) (k : Kind) (key : String) (v : k.Carrier) :
    (m.insert key ⟨k, v⟩).get? k key = some v := by
  simp [get?, slot?_insert_same]

theorem lookup_filter_ne {α : Type} {key other : String} (h : other ≠ key)
    (entries : List (String × α)) :
    List.lookup other (entries.filter fun e => e.1 != key) = List.lookup other entries := by
  induction entries with
  | nil => rfl
  | cons e rest ih =>
    obtain ⟨x, v⟩ := e
    by_cases hx : x = key
    · simp [hx, List.lookup_cons, beq_false_of_ne h, ih]
    · simp [hx, List.lookup_cons, ih]

theorem slot?_insert_of_ne (m : Memory) {key other : String} (h : other ≠ key) (s : Slot) :
    (m.insert key s).slot? other = m.slot? other := by
  simp [slot?, insert, erase, List.lookup_cons, beq_false_of_ne h, lookup_filter_ne h]

theorem get?_insert_of_ne (m : Memory) {key other : String} (h : other ≠ key) (k : Kind)
    (s : Slot) : (m.insert key s).get? k other = m.get? k other := by
  simp [get?, slot?_insert_of_ne m h]

/-! ### Operations as data -/

/-- An operation on a memory. -/
inductive Request where
  | insert (key : String) (slot : Slot)
  | get (key : String) (kind : Kind)
  | remove (key : String) (kind : Kind)
  | contains (key : String)
  | size
  | isEmpty
  | form
  | add (key : String) (n : Int)
  | append (key : String) (s : String)
  | push (key : String) (s : String)
  | flip (key : String)

/-- What an operation answers. -/
inductive Answer where
  | nothing
  | integer (n : Int)
  | text (s : String)
  | list (items : List String)
  | truth (b : Bool)
deriving DecidableEq, Repr

/-- A value as an answer. -/
def Answer.ofValue : (k : Kind) → k.Carrier → Answer
  | .integer, n => integer n
  | .text, s => text s
  | .list, xs => list xs
  | .truth, b => truth b

/-- A value that may be absent as an answer. -/
def Answer.ofOption (k : Kind) : Option k.Carrier → Answer
  | none => nothing
  | some v => ofValue k v

/-- The answer in compact notation. -/
def Answer.note : Answer → String
  | nothing => "null"
  | integer n => toString n
  | text s => Text.noteText s
  | list items => Text.noteList (items.map Text.noteText)
  | truth b => Text.truth b

/-- Integers have 64 bits with sign and wrap around. -/
def wrapped (n : Int) : Int := n.bmod (Nat.pow 2 64)

/-- Performs an operation. -/
def perform (m : Memory) : Request → Answer × Memory
  | .insert key slot => (.truth (m.contains key), m.insert key slot)
  | .get key kind => (.ofOption kind (m.get? kind key), m)
  | .remove key kind =>
    let (v, rest) := m.remove kind key
    (.ofOption kind v, rest)
  | .contains key => (.truth (m.contains key), m)
  | .size => (.integer m.size, m)
  | .isEmpty => (.truth m.slots.isEmpty, m)
  | .form => (.text m.form, m)
  | .add key n =>
    let (a, rest) := m.update .integer key fun (old : Int) => (wrapped (old + n), wrapped (old + n))
    (.ofOption .integer a, rest)
  | .append key s =>
    let (a, rest) := m.update .text key fun (old : String) => (old ++ s, old ++ s)
    (.ofOption .text a, rest)
  | .push key s =>
    let (a, rest) := m.update .list key fun (old : List String) =>
      (old ++ [s], (old.length + 1 : Int))
    (.ofOption .integer a, rest)
  | .flip key =>
    let (a, rest) := m.update .truth key fun (old : Bool) => (!old, !old)
    (.ofOption .truth a, rest)

end Memory

end PartyGraph
