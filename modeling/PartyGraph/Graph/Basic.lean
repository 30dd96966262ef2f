import PartyGraph.Feature.Attached
import PartyGraph.Section.Configuration
import PartyGraph.Text.Quoted

/-!
# The graph of parties

The root owns remote parties and tenant domains, and each tenant domain owns remote parties of its
own. Every party but the root has a number, which it keeps for good, in the graph or not: a party is
made first, put into the list of its owner later, and taken out of it when it is destroyed. What
became of it can still be asked by its number then.

## Main definitions

* `OwnedParty`: what is known of a party other than the root.
* `Graph`: the parties ever made, and the lists that are the graph.
* `Graph.remotesOf`, `Graph.allParties`, `Graph.keys`: what is in the graph.
-/

namespace PartyGraph

/-- The number of a party other than the root, in the order in which parties were made. -/
abbrev PartyId := Nat

/-- Any party. -/
inductive PartyRef where
  | root
  | owned (id : PartyId)
deriving DecidableEq, Repr

/-- How far the destruction of a party has come. -/
inductive DestroyState where
  | alive
  | destroying
  | destroyed
deriving DecidableEq, Repr

/-- A party other than the root. -/
structure OwnedParty where
  configuration : PartyConfiguration
  /-- The root, or a tenant domain if the party is remote. -/
  owner : PartyRef
  ownerConfiguration : PartyConfiguration
  /-- Whether the party was added later; others cannot be destroyed. -/
  dynamic : Bool
  destroyState : DestroyState
  features : FeatureSet String
  /-- The remote parties that a tenant domain owns. -/
  remotes : List PartyId

namespace OwnedParty

/-- The name of the party. -/
def name (p : OwnedParty) : FullName := p.configuration.fullName

/-- Whether the party is a tenant domain. -/
def isTenant (p : OwnedParty) : Bool := p.configuration.kind = .tenantDomain

/-- Whether the destruction of the party was requested. -/
def isDestroyed (p : OwnedParty) : Bool := p.destroyState ≠ .alive

end OwnedParty

/-- The parties ever made, and the lists that tell which of them are in the graph. -/
structure Graph where
  root : PartyConfiguration
  rootFeatures : FeatureSet String
  parties : List OwnedParty
  /-- The remote parties that the root owns. -/
  remotes : List PartyId
  tenants : List PartyId

namespace Graph

/-- What is known of a party. -/
def party? (g : Graph) (id : PartyId) : Option OwnedParty := g.parties[id]?

/-- The configuration of a party. -/
def configuration? (g : Graph) : PartyRef → Option PartyConfiguration
  | .root => some g.root
  | .owned id => (g.party? id).map (·.configuration)

/-- The name of a party. -/
def name? (g : Graph) (p : PartyRef) : Option FullName := (g.configuration? p).map (·.fullName)

/-- The text of the name of a party. -/
def nameText (g : Graph) (p : PartyRef) : String := ((g.name? p).map (·.text)).getD ""

/-- The features of a party. -/
def features? (g : Graph) : PartyRef → Option (FeatureSet String)
  | .root => some g.rootFeatures
  | .owned id => (g.party? id).map (·.features)

/-- The remote parties that a party owns. -/
def remotesOf (g : Graph) : PartyRef → List PartyId
  | .root => g.remotes
  | .owned id => ((g.party? id).map (·.remotes)).getD []

/-- The remote parties of all owners. -/
def allRemotes (g : Graph) : List PartyId :=
  g.remotes ++ g.tenants.flatMap fun t => g.remotesOf (.owned t)

/-- The parties that the root owns. -/
def rootParties (g : Graph) : List PartyId := g.remotes ++ g.tenants

/-- All parties of the graph but the root: its remote parties, then each tenant domain followed by
its own. -/
def allParties (g : Graph) : List PartyId :=
  g.remotes ++ g.tenants.flatMap fun t => t :: g.remotesOf (.owned t)

/-- The key of the name of a party. -/
def key (g : Graph) (id : PartyId) : String :=
  ((g.name? (.owned id)).map (·.key)).getD ""

/-- The keys of all names in use, that of the root first. -/
def keys (g : Graph) : List String := g.root.fullName.key :: g.allParties.map g.key

/-- The party of the graph with a name. -/
def find? (g : Graph) (name : FullName) : Option PartyId :=
  g.allParties.find? fun id => g.key id = name.key

/-- Whether the destruction of a party was requested. -/
def isDestroyed (g : Graph) (id : PartyId) : Bool :=
  ((g.party? id).map (·.isDestroyed)).getD false

/-- Whether the destruction of a party has been completed. -/
def isGone (g : Graph) (id : PartyId) : Bool :=
  ((g.party? id).map fun p => decide (p.destroyState = .destroyed)).getD false

/-- Whether a party is a tenant domain. -/
def isTenant (g : Graph) (id : PartyId) : Bool := ((g.party? id).map (·.isTenant)).getD false

/-- Whether a party may own remote parties. -/
def isLocal (g : Graph) : PartyRef → Bool
  | .root => true
  | .owned id => g.isTenant id

/-- The list that a party is in while it is in the graph. -/
def siblings (g : Graph) (id : PartyId) : List PartyId :=
  match g.party? id with
  | none => []
  | some p => if p.isTenant then g.tenants else g.remotesOf p.owner

end Graph

end PartyGraph
