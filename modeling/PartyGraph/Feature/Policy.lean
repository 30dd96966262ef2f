import PartyGraph.Feature.NameSet

/-!
# Feature policies

A section may allow and disallow features by name; what it does not mention follows the section
around it. A policy is the outcome of a chain of such mentions: the features that are allowed and
those that are disallowed by the nearest mention. What is in neither follows the default.

## Main definitions

* `FeaturePolicy`: the two sets.
* `FeaturePolicy.inherit`: the policy of a section from the one around it and its own entries.
* `FeaturePolicy.isAllowed`: the answer for one feature.
-/

namespace PartyGraph

/-- The features that the nearest mention allows, and those that it disallows. -/
structure FeaturePolicy where
  allowed : NameSet
  disallowed : NameSet
deriving DecidableEq

namespace FeaturePolicy

/-- The policy before any mention. -/
def none : FeaturePolicy := ⟨∅, ∅⟩

instance : Inhabited FeaturePolicy := ⟨none⟩

/-- The policy of a section: its own entries come before what it inherits. Features that it both
allows and disallows are an error, which lists them in order. -/
def inherit (parent : FeaturePolicy) (ownAllow ownDisallow : List String) :
    Except (List String) FeaturePolicy :=
  let allow := NameSet.ofEntries ownAllow
  let disallow := NameSet.ofEntries ownDisallow
  let overlap := allow.inter disallow
  if overlap.isEmpty then
    let allowed := allow.union (parent.allowed.diff disallow)
    .ok ⟨allowed, disallow.union (parent.disallowed.diff allowed)⟩
  else .error overlap.names

/-- Whether a feature is allowed when `above` is the answer of the level above. -/
def isAllowed (policy : FeaturePolicy) (feature : String) (above : Bool) : Bool :=
  let name := Text.lowercase feature
  if above then !policy.disallowed.contains name else policy.allowed.contains name

end FeaturePolicy

end PartyGraph
