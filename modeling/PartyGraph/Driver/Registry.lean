import PartyGraph.Driver.Basic

/-!
# The drivers of an identity

Drivers are registered one after the other. A driver is made for the binding that it is given, and
it is checked before and after whether it may be registered, because an identity may start while it
is made. From the start on the list does not change.

## Main definitions

* `Registry`: the drivers, and those that are waited for.
* `Registry.bind`, `Registry.install`: the two halves of a registration.
* `Registry.freeze`: what happens at the start.
-/

namespace PartyGraph

/-- The drivers of an identity. -/
structure Registry where
  root : PartyConfiguration
  /-- In the order of their registration. -/
  drivers : List Driver
  /-- The names of features without which the identity is not to start. -/
  expected : List String
  frozen : Bool

namespace Registry

/-- No driver. -/
def empty (root : PartyConfiguration) : Registry := ⟨root, [], [], false⟩

/-- The names of the features that there are drivers of. -/
def featureNames (r : Registry) : List String := r.drivers.map (·.binding.featureName)

/-- Whether there is a driver of a feature. Names may differ in the case of ASCII letters. -/
def has (r : Registry) (featureName : String) : Bool :=
  r.featureNames.any fun name => Text.eqIgnoringAsciiCase name featureName

/-- Why a driver of a feature cannot be registered, if so. -/
def refusal (r : Registry) (featureName : String) : Option IdentityError :=
  if r.frozen then some (.driversFrozen featureName)
  else if r.has featureName then some (.duplicateDriver featureName)
  else none

/-- The binding for a new driver of a type. -/
def bind (r : Registry) (typeName : String) (allowedByDefault : Bool) :
    Except IdentityError Binding := do
  let featureName ← featureNameOf typeName
  match r.refusal featureName with
  | some e => .error e
  | none =>
    .ok ⟨featureName, r.root.isAllowedFeature featureName allowedByDefault, r.drivers.length⟩

/-- The drivers with one more at the end. -/
def install (r : Registry) (d : Driver) : Except IdentityError Registry :=
  match r.refusal d.binding.featureName with
  | some e => .error e
  | none => .ok { r with drivers := r.drivers ++ [d] }

/-- The driver of a feature. -/
def find? (r : Registry) (featureName : String) : Option Driver :=
  r.drivers.find? fun d => d.binding.featureName = featureName

/-- One more feature without which the identity is not to start. -/
def expect (r : Registry) (featureName : String) : Registry :=
  { r with expected := r.expected ++ [featureName] }

/-- Whether there are drivers of all features that are expected. -/
def isComplete (r : Registry) : Bool := r.expected.all r.has

/-- The drivers from the start on. -/
def freeze (r : Registry) : Registry := { r with frozen := true }

/-- Form of the drivers. -/
def form (r : Registry) : String :=
  Text.record "DriverRegistry" [("drivers", Text.listed (r.featureNames.map Text.quoted)),
    ("frozen", Text.truth r.frozen)]

end Registry

end PartyGraph
