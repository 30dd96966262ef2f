import PartyGraph.Feature.Policy
import PartyGraph.Name.FullName
import PartyGraph.Section.Basic

/-!
# Resolved configurations

## Main definitions

* `PartyConfiguration`: a party as its section and those around it declare it.
* `Parties`: the parties of a tree. Tenant domains stand side by side, whatever the depth at which
  they were declared.
-/

namespace PartyGraph

/-- What a party is in the graph. -/
inductive PartyKind where
  | root
  | tenantDomain
  | remote
deriving DecidableEq, Repr

/-- A party as it is declared. -/
structure PartyConfiguration where
  kind : PartyKind
  fullName : FullName
  address : Option String
  policy : FeaturePolicy
  settings : Toml.Table
  path : SectionPath

namespace PartyConfiguration

/-- Whether the party may have a feature when `above` is the answer of the level above. -/
def isAllowedFeature (c : PartyConfiguration) (feature : String) (above : Bool) : Bool :=
  c.policy.isAllowed feature above

end PartyConfiguration

/-- A tenant domain with the remote parties declared in it. -/
structure TenantConfiguration where
  party : PartyConfiguration
  remotes : List PartyConfiguration

/-- The parties of a tree: remote parties of the owner, and tenant domains. -/
structure Parties where
  remotes : List PartyConfiguration
  tenants : List TenantConfiguration

namespace Parties

/-- No party. -/
def none : Parties := ⟨[], []⟩

instance : Inhabited Parties := ⟨none⟩

/-- One remote party. -/
def remote (c : PartyConfiguration) : Parties := ⟨[c], []⟩

/-- The parties of two trees. -/
def append (a b : Parties) : Parties := ⟨a.remotes ++ b.remotes, a.tenants ++ b.tenants⟩

instance : Append Parties := ⟨append⟩

/-- A tenant domain around the parties of its section: the remote parties become its own, and the
tenant domains come before it. -/
def tenant (c : PartyConfiguration) (inner : Parties) : Parties :=
  ⟨[], inner.tenants ++ [⟨c, inner.remotes⟩]⟩

/-- Whether there is no party. -/
def isEmpty (p : Parties) : Bool := p.remotes.isEmpty && p.tenants.isEmpty

/-- All configurations: remote parties, then each tenant domain followed by its own. -/
def all (p : Parties) : List PartyConfiguration :=
  p.remotes ++ p.tenants.flatMap fun t => t.party :: t.remotes

/-- All names, in the order of `all`. -/
def fullNames (p : Parties) : List FullName := p.all.map (·.fullName)

end Parties

/-- A resolved tree. -/
structure ResolvedRoot where
  root : PartyConfiguration
  parties : Parties

end PartyGraph
