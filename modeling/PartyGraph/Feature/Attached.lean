import PartyGraph.Identity.Error
import PartyGraph.Text.Quoted

/-!
# Features attached to a party

A party carries at most one feature of each type. A feature is found by the name of its type and
stays as long as the party.

## Main definitions

* `FeatureSet`: the features of a party, with values of type `V`.
* `FeatureSet.add`, `FeatureSet.get?`, `FeatureSet.getRequired`: attaching and finding.
-/

namespace PartyGraph

/-- The features of a party, each under the name of its type, the latest first. -/
structure FeatureSet (V : Type) where
  party : String
  features : List (String × V)

namespace FeatureSet

variable {V : Type}

/-- No feature, for the party of a name. -/
def empty (party : String) : FeatureSet V := ⟨party, []⟩

/-- The feature of a type. -/
def get? (s : FeatureSet V) (type : String) : Option V := List.lookup type s.features

/-- Whether a feature of a type is attached. -/
def contains (s : FeatureSet V) (type : String) : Bool := (s.get? type).isSome

/-- Attaches a feature; a second one of the same type is an error. -/
def add (s : FeatureSet V) (type : String) (v : V) : Except IdentityError (FeatureSet V) :=
  if s.contains type then .error (.duplicateFeature s.party type)
  else .ok { s with features := (type, v) :: s.features }

/-- The feature of a type, which has to be there. -/
def getRequired (s : FeatureSet V) (type : String) : Except IdentityError V :=
  match s.get? type with
  | some v => .ok v
  | none => .error (.featureNotFound s.party type)

/-- Number of features. -/
def size (s : FeatureSet V) : Nat := s.features.length

/-- Form of a set: the party and the number of its features. -/
def form (s : FeatureSet V) : String :=
  Text.record "FeatureSet" [("party", Text.quoted s.party), ("count", toString s.size)]

end FeatureSet

end PartyGraph
