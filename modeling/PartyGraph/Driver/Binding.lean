import PartyGraph.Graph.Basic
import PartyGraph.Identity.Error

/-!
# Features and their drivers

A feature is brought to the parties by a driver, and takes its name from the name of the driver's
type, which ends in `FeatureDriver`.

## Main definitions

* `featureNameOf`: the name of the feature that drivers of a type bring.
* `Binding`: what a driver learns when it is registered.
* `Binding.isAllowed`: whether a party may have the feature.
-/

namespace PartyGraph

/-- The characters up to two colons. -/
def upToColons : List Char → List Char
  | ':' :: ':' :: _ => []
  | c :: rest => c :: upToColons rest
  | [] => []

/-- The own name of a type: without its parameters and the path in front. -/
def shortTypeName (typeName : String) : String :=
  let path := typeName.toList.takeWhile (· ≠ '<')
  String.ofList (upToColons path.reverse).reverse

/-- What the type names of drivers end in. -/
def driverSuffix : List Char := "FeatureDriver".toList

/-- The name of the feature that drivers of a type bring. -/
def featureNameOf (typeName : String) : Except IdentityError String :=
  let short := shortTypeName typeName
  let backwards := short.toList.reverse
  let feature := (backwards.drop driverSuffix.length).reverse
  if driverSuffix.reverse.isPrefixOf backwards && !feature.isEmpty then .ok (String.ofList feature)
  else .error (.invalidDriverName short)

/-- What a driver learns when it is registered. -/
structure Binding where
  featureName : String
  /-- Whether the root may have the feature. -/
  rootAllowed : Bool
  /-- Number of drivers registered before. -/
  position : Nat
deriving DecidableEq, Repr

namespace Binding

/-- Whether a party other than the root may have the feature. Its owner is asked first. -/
def isAllowedTo (b : Binding) (p : OwnedParty) : Bool :=
  p.configuration.isAllowedFeature b.featureName
    (p.ownerConfiguration.isAllowedFeature b.featureName b.rootAllowed)

/-- Whether a party may have the feature. -/
def isAllowed (b : Binding) (g : Graph) : PartyRef → Bool
  | .root => b.rootAllowed
  | .owned id => ((g.party? id).map b.isAllowedTo).getD false

end Binding

end PartyGraph
