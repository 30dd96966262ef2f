import PartyGraph.Toml.Value

/-!
# Party sections

A party is declared by a section, which may hold further sections. A section gives names, perhaps
an address, the features that it allows and disallows, and settings that the library passes on
unread.

## Main definitions

* `PartySection`: the section.
* `SectionPath`: where a section stands in the tree.
-/

namespace PartyGraph

/-- The declaration of a party, or of a group of parties when it names none. -/
structure PartySection where
  fullName : Option String
  domainName : Option String
  partyName : Option String
  environmentName : Option String
  address : Option String
  allow : List String
  disallow : List String
  settings : Toml.Table
  parties : List PartySection

namespace PartySection

/-- The section that says nothing. -/
def blank : PartySection := ⟨none, none, none, none, none, [], [], [], []⟩

instance : Inhabited PartySection := ⟨blank⟩

/-- Whether the section says nothing. -/
def isBlank (s : PartySection) : Bool :=
  s.fullName.isNone && s.domainName.isNone && s.partyName.isNone && s.environmentName.isNone
    && s.address.isNone && s.allow.isEmpty && s.disallow.isEmpty && s.settings.isEmpty
    && s.parties.isEmpty

end PartySection

/-- What a path starts from: the tree of an identity, or a later addition to it. -/
inductive SectionOrigin where
  | root
  | increment
deriving DecidableEq, Repr

/-- The place of a section: from the origin, the number of the child at each level. -/
structure SectionPath where
  origin : SectionOrigin
  indices : List Nat
deriving DecidableEq, Repr

namespace SectionPath

/-- The path of the tree's own section. -/
def root : SectionPath := ⟨.root, []⟩

/-- The path of an addition's own section. -/
def increment : SectionPath := ⟨.increment, []⟩

/-- The path of the child with number `i`. -/
def child (p : SectionPath) (i : Nat) : SectionPath := ⟨p.origin, p.indices ++ [i]⟩

/-- The path as it is written. -/
def text (p : SectionPath) : String :=
  (match p.origin with
    | .root => "root"
    | .increment => "increment")
    ++ String.join (p.indices.map fun i => ".parties[" ++ toString i ++ "]")

end SectionPath

end PartyGraph
