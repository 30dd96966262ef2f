import PartyGraph.Text.Blank
import PartyGraph.Text.Lowercase
import PartyGraph.Text.Pieces

/-!
# Sets of feature names

Feature names are compared in lower case. A set of them is kept as the list of its members in
strictly ascending order, so equal sets are equal lists and a set is shown in order.

## Main definitions

* `NameSet`: the sets, with `insert`, `union`, `diff` and `inter`.
* `NameSet.ofEntries`: the names written in a list of entries.

## Main results

* `mem_insert`, `mem_union`, `mem_diff`, `mem_inter`: the operations are those of sets.
-/

namespace PartyGraph

/-- A finite set of names. -/
structure NameSet where
  names : List String
  ascending : names.Pairwise (· < ·)
deriving DecidableEq

namespace NameSet

instance : Membership String NameSet := ⟨fun s x => x ∈ s.names⟩

theorem mem_def {x : String} {s : NameSet} : x ∈ s ↔ x ∈ s.names := Iff.rfl

instance (x : String) (s : NameSet) : Decidable (x ∈ s) :=
  inferInstanceAs (Decidable (x ∈ s.names))

/-- The set without members. -/
def empty : NameSet := ⟨[], .nil⟩

instance : EmptyCollection NameSet := ⟨empty⟩

instance : Inhabited NameSet := ⟨empty⟩

theorem notMem_empty (x : String) : x ∉ (∅ : NameSet) := by
  intro h
  cases h

/-- Puts `x` into its place in an ascending list. -/
def place (x : String) : List String → List String
  | [] => [x]
  | y :: ys =>
    if x < y then x :: y :: ys
    else if x = y then y :: ys
    else y :: place x ys

theorem mem_place {x z : String} {ys : List String} : z ∈ place x ys ↔ z = x ∨ z ∈ ys := by
  induction ys with
  | nil => simp [place]
  | cons y ys ih =>
    unfold place
    split
    · simp
    · split
      · next h => subst h; simp
      · simp only [List.mem_cons, ih]
        constructor
        · rintro (h | h | h) <;> simp [h]
        · rintro (h | h | h) <;> simp [h]

theorem pairwise_place {x : String} {ys : List String} (h : ys.Pairwise (· < ·)) :
    (place x ys).Pairwise (· < ·) := by
  induction ys with
  | nil => simp [place]
  | cons y ys ih =>
    rw [List.pairwise_cons] at h
    unfold place
    split
    · next hxy =>
      refine List.pairwise_cons.2 ⟨?_, List.pairwise_cons.2 h⟩
      intro z hz
      rcases List.mem_cons.1 hz with rfl | hz
      · exact hxy
      · exact String.lt_trans hxy (h.1 z hz)
    · split
      · exact List.pairwise_cons.2 h
      · next hxy hne =>
        refine List.pairwise_cons.2 ⟨?_, ih h.2⟩
        intro z hz
        rcases mem_place.1 hz with rfl | hz
        · refine Decidable.byContradiction fun hyx => ?_
          exact hne (String.le_antisymm (String.not_lt.1 hyx) (String.not_lt.1 hxy))
        · exact h.1 z hz

/-- The set with one more member. -/
def insert (s : NameSet) (x : String) : NameSet := ⟨place x s.names, pairwise_place s.ascending⟩

@[simp] theorem mem_insert {s : NameSet} {x z : String} : z ∈ s.insert x ↔ z = x ∨ z ∈ s :=
  mem_place

/-- The members of a list. -/
def ofList (xs : List String) : NameSet := xs.foldl insert ∅

theorem mem_foldl_insert {z : String} {xs : List String} {s : NameSet} :
    z ∈ xs.foldl insert s ↔ z ∈ xs ∨ z ∈ s := by
  induction xs generalizing s with
  | nil => simp
  | cons x xs ih =>
    rw [List.foldl_cons, ih, mem_insert, List.mem_cons]
    constructor
    · rintro (h | h | h) <;> simp [h]
    · rintro ((h | h) | h) <;> simp [h]

@[simp] theorem mem_ofList {z : String} {xs : List String} : z ∈ ofList xs ↔ z ∈ xs := by
  unfold ofList
  rw [mem_foldl_insert]
  simp [notMem_empty]

/-- The members of either set. -/
def union (s t : NameSet) : NameSet := t.names.foldl insert s

@[simp] theorem mem_union {z : String} {s t : NameSet} : z ∈ s.union t ↔ z ∈ s ∨ z ∈ t := by
  unfold union
  rw [mem_foldl_insert, ← mem_def]
  exact Or.comm

/-- The members of `s` that `keep` holds of. -/
def filter (keep : String → Bool) (s : NameSet) : NameSet :=
  ⟨s.names.filter keep, s.ascending.filter keep⟩

/-- The members of the first set that are not in the second. -/
def diff (s t : NameSet) : NameSet := s.filter fun x => !t.names.contains x

@[simp] theorem mem_diff {z : String} {s t : NameSet} : z ∈ s.diff t ↔ z ∈ s ∧ z ∉ t := by
  simp [diff, filter, mem_def]

/-- The members of both sets. -/
def inter (s t : NameSet) : NameSet := s.filter fun x => t.names.contains x

@[simp] theorem mem_inter {z : String} {s t : NameSet} : z ∈ s.inter t ↔ z ∈ s ∧ z ∈ t := by
  simp [inter, filter, mem_def]

/-- Whether a name is a member. -/
def contains (s : NameSet) (x : String) : Bool := s.names.contains x

@[simp] theorem contains_iff {s : NameSet} {x : String} : s.contains x = true ↔ x ∈ s := by
  simp [contains, mem_def]

/-- Whether there is no member. -/
def isEmpty (s : NameSet) : Bool := s.names.isEmpty

/-- The names written in one entry: they stand between commas, white space around them and their
case do not count, and an empty name is none. -/
def namesOf (entry : String) : List String :=
  (Text.pieces ',' entry.toList).filterMap fun piece =>
    let name := Text.trimChars piece
    if name.isEmpty then none else some (Text.lowercase (String.ofList name))

/-- The names written in a list of entries. -/
def ofEntries (entries : List String) : NameSet := ofList (entries.flatMap namesOf)

end NameSet

end PartyGraph
