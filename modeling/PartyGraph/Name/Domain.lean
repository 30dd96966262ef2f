import PartyGraph.Name.Error
import PartyGraph.Name.Segment

/-!
# Domains

A domain is a path of segments. Two words are reserved: a domain that begins with `External`,
whatever the case and whatever follows, is `External` itself and marks parties of others; one that
begins with `Undefined` is `Undefined`, the domain of those that were given none. Reserved domains
have no sub domains.

## Main definitions

* `Reserved`: the two words.
* `Domain`: a reserved word, or a path that does not begin with one.
* `Domain.ofSegments`, `Domain.read`: the domain that a path or a text denotes.
-/

namespace PartyGraph

/-- The reserved domain words. -/
inductive Reserved where
  | external
  | undefined
deriving DecidableEq, Repr

namespace Reserved

/-- The word as it is written. -/
def segment : Reserved → Segment
  | external => ⟨['E', 'x', 't', 'e', 'r', 'n', 'a', 'l'], by decide⟩
  | undefined => ⟨['U', 'n', 'd', 'e', 'f', 'i', 'n', 'e', 'd'], by decide⟩

/-- Whether `s` begins with the word, in any case. -/
def begins (r : Reserved) (s : Segment) : Bool := r.segment.lower.isPrefixOf s.lower

/-- The reserved word that `s` begins with. No segment begins with both. -/
def of? (s : Segment) : Option Reserved :=
  if external.begins s then some external
  else if undefined.begins s then some undefined
  else none

end Reserved

/-- A domain in normal form. -/
inductive Domain where
  | reserved (word : Reserved)
  | path (first : Segment) (rest : List Segment) (free : Reserved.of? first = none)
deriving DecidableEq, Repr

namespace Domain

/-- The segments of a domain, outermost first. -/
def segments : Domain → List Segment
  | reserved word => [word.segment]
  | path first rest _ => first :: rest

theorem segments_ne_nil (d : Domain) : d.segments ≠ [] := by
  cases d <;> simp [segments]

/-- Characters of the text of a domain. -/
def chars (d : Domain) : List Char := Text.joined '/' (d.segments.map Segment.chars)

/-- Text of a domain: its segments with `/` between them. -/
def text (d : Domain) : String := String.ofList d.chars

instance : ToString Domain := ⟨text⟩

/-- The innermost segment. -/
def last (d : Domain) : Segment := d.segments.getLast d.segments_ne_nil

/-- Whether this is the domain of parties of others. -/
def isExternal (d : Domain) : Bool := d = reserved .external

/-- The domain of parties that were given none. -/
def default : Domain := reserved .undefined

/-- The domain that the path `first/rest` denotes; `none` when a reserved word has sub domains. -/
def ofSegments (first : Segment) (rest : List Segment) : Option Domain :=
  match h : Reserved.of? first with
  | none => some (path first rest h)
  | some word => if rest.isEmpty then some (reserved word) else none

/-- The domain that a path denotes, or why it denotes none. `text` is what the error shows. -/
def ofPath (text : String) : List Segment → Except NameError Domain
  | [] => .error (.invalidDomain text)
  | first :: rest =>
    match ofSegments first rest with
    | some domain => .ok domain
    | none => .error (.reservedSubDomain text)

/-- The domain that a text denotes. -/
def read (text : String) : Except NameError Domain :=
  match Segment.ofPieces? (Text.pieces '/' text.toList) with
  | none => .error (.invalidDomain text)
  | some segments => ofPath text segments

/-- Whether a text has the form of a domain, reserved words aside. -/
def isValid (text : String) : Bool := (Text.pieces '/' text.toList).all isSegment

end Domain

end PartyGraph
