import PartyGraph.Graph.Basic

/-!
# Parties made from configurations

Parties are made from a resolved tree before they are put into the graph: first the remote parties
of the owner, then each tenant domain followed by its own.

## Main definitions

* `Draft.make`: the parties that configurations describe, with the numbers that they will have.
* `Graph.ofResolved`: the graph that a configuration describes.
-/

namespace PartyGraph

/-- Parties made but not put into the graph: the numbers of those that the owner will own, and all
parties in the order of their numbers. -/
structure Draft where
  remotes : List PartyId
  tenants : List PartyId
  parties : List OwnedParty

namespace Draft

/-- A party as it is made. -/
def ofConfiguration (c : PartyConfiguration) (owner : PartyRef)
    (ownerConfiguration : PartyConfiguration) (dynamic : Bool) (remotes : List PartyId) :
    OwnedParty :=
  ⟨c, owner, ownerConfiguration, dynamic, .alive, .empty c.fullName.text, remotes⟩

/-- A tenant domain with the number `id`, and its remote parties with the numbers after it. -/
def ofTenant (root : PartyConfiguration) (dynamic : Bool) (id : PartyId)
    (t : TenantConfiguration) : List OwnedParty :=
  ofConfiguration t.party .root root dynamic (List.range' (id + 1) t.remotes.length)
    :: t.remotes.map fun c => ofConfiguration c (.owned id) t.party dynamic []

/-- Tenant domains with numbers from `first` on: their numbers, and all parties. -/
def ofTenants (root : PartyConfiguration) (dynamic : Bool) (first : PartyId) :
    List TenantConfiguration → List PartyId × List OwnedParty
  | [] => ([], [])
  | t :: rest =>
    let (ids, parties) := ofTenants root dynamic (first + 1 + t.remotes.length) rest
    (first :: ids, ofTenant root dynamic first t ++ parties)

/-- The parties that configurations describe, with numbers from `first` on. -/
def make (root : PartyConfiguration) (owner : PartyRef) (ownerConfiguration : PartyConfiguration)
    (dynamic : Bool) (first : PartyId) (parties : Parties) : Draft :=
  let remotes := parties.remotes.map fun c => ofConfiguration c owner ownerConfiguration dynamic []
  let (ids, others) := ofTenants root dynamic (first + remotes.length) parties.tenants
  ⟨List.range' first remotes.length, ids, remotes ++ others⟩

end Draft

/-- The graph that a configuration describes. -/
def Graph.ofResolved (r : ResolvedRoot) : Graph :=
  let draft := Draft.make r.root .root r.root false 0 r.parties
  ⟨r.root, .empty r.root.fullName.text, draft.parties, draft.remotes, draft.tenants⟩

end PartyGraph
