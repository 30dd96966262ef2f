import PartyGraph.Text.Lowercase
import PartyGraph.Text.Pieces

/-!
# Segments of names

A full name is made of segments. A segment is an ASCII letter, digit or underscore followed by any
number of those, dashes and dots. So it is never empty, never `.` or `..`, and holds no separator.

## Main definitions

* `isSegment`: the grammar.
* `Segment`: a text that satisfies it.
* `Segment.lower`: its characters in lower case, by which segments are compared.
-/

namespace PartyGraph

/-- Characters that may begin a segment. -/
def isLeading (c : Char) : Bool := c.isAlphanum || c == '_'

/-- Characters that may follow the first one. -/
def isFollowing (c : Char) : Bool := isLeading c || c == '-' || c == '.'

/-- The grammar of segments. -/
def isSegment : List Char → Bool
  | [] => false
  | c :: rest => isLeading c && rest.all isFollowing

/-- A text in the grammar of segments. -/
structure Segment where
  chars : List Char
  wellFormed : isSegment chars = true
deriving DecidableEq, Repr

namespace Segment

/-- Reads a segment; `none` outside the grammar. -/
def ofChars? (cs : List Char) : Option Segment :=
  if h : isSegment cs then some ⟨cs, h⟩ else none

/-- Reads segments; `none` when one is outside the grammar. -/
def ofPieces? (ps : List (List Char)) : Option (List Segment) := ps.mapM ofChars?

/-- Text of a segment. -/
def text (s : Segment) : String := String.ofList s.chars

/-- Characters in lower case. Segments are ASCII, so the mapping is that of ASCII letters. -/
def lower (s : Segment) : List Char := s.chars.map Char.toLower

/-- Equality up to case. -/
def sameAs (a b : Segment) : Bool := a.lower == b.lower

instance : ToString Segment := ⟨text⟩

theorem ofChars?_chars (s : Segment) : ofChars? s.chars = some s := by
  simp [ofChars?, s.wellFormed]

theorem ofChars?_eq_some {cs : List Char} {s : Segment} :
    ofChars? cs = some s ↔ s.chars = cs := by
  unfold ofChars?
  split
  · constructor
    · rintro h; cases h; rfl
    · rintro rfl; rfl
  · next h =>
    constructor
    · intro h'; cases h'
    · rintro rfl; exact absurd s.wellFormed h

theorem chars_ne_nil (s : Segment) : s.chars ≠ [] := by
  intro h
  have := s.wellFormed
  rw [h] at this
  simp [isSegment] at this

end Segment

end PartyGraph
