import PartyGraph.Graph.Basic

/-!
# Changes of the graph

The graph changes by single steps, each of which happens at once. Nothing else changes it, so what
holds before and after each of these holds at all times.

## Main definitions

* `GraphChange`: the steps.
* `Graph.apply`: the graph after one.
-/

namespace PartyGraph

/-- A step in which the graph changes. -/
inductive GraphChange where
  /-- Parties are made, with the next numbers. -/
  | make (parties : List OwnedParty)
  /-- A party is put at the end of the list of its owner. -/
  | insert (id : PartyId)
  /-- A party is taken out of the list of its owner. -/
  | remove (id : PartyId)
  /-- All remote parties of a tenant domain are taken out of its list. -/
  | clear (id : PartyId)
  /-- The destruction of a party is requested, and with it that of the remote parties it owns. -/
  | doom (id : PartyId)
  /-- The destruction of a party is completed. -/
  | complete (id : PartyId)
  /-- A feature is attached to a party. -/
  | attach (p : PartyRef) (type value : String)

/-- The party with its destruction requested, unless it was before. -/
def OwnedParty.doomed (p : OwnedParty) : OwnedParty :=
  if p.destroyState = .alive then { p with destroyState := .destroying } else p

/-- The features with one more, if there is none of its type. -/
def FeatureSet.with (s : FeatureSet String) (type value : String) : FeatureSet String :=
  match s.add type value with
  | .ok s' => s'
  | .error _ => s

namespace Graph

/-- The graph with a party changed. -/
def modify (g : Graph) (id : PartyId) (f : OwnedParty → OwnedParty) : Graph :=
  { g with parties := g.parties.modify id f }

/-- The graph with the list of remote parties of an owner changed. -/
def modifyRemotes (g : Graph) (owner : PartyRef) (f : List PartyId → List PartyId) : Graph :=
  match owner with
  | .root => { g with remotes := f g.remotes }
  | .owned id => g.modify id fun p => { p with remotes := f p.remotes }

/-- The graph with the list changed that a party is in while it is in the graph. -/
def modifySiblings (g : Graph) (id : PartyId) (f : List PartyId → List PartyId) : Graph :=
  match g.party? id with
  | none => g
  | some p => if p.isTenant then { g with tenants := f g.tenants } else g.modifyRemotes p.owner f

/-- The graph after a step. -/
def apply (g : Graph) : GraphChange → Graph
  | .make parties => { g with parties := g.parties ++ parties }
  | .insert id => g.modifySiblings id (· ++ [id])
  | .remove id => g.modifySiblings id (·.filter (· ≠ id))
  | .clear id => g.modify id fun p => { p with remotes := [] }
  | .doom id =>
    (g.remotesOf (.owned id)).foldl (fun g r => g.modify r OwnedParty.doomed)
      (g.modify id OwnedParty.doomed)
  | .complete id => g.modify id fun p => { p with destroyState := .destroyed }
  | .attach .root type value => { g with rootFeatures := g.rootFeatures.with type value }
  | .attach (.owned id) type value =>
    g.modify id fun p => { p with features := p.features.with type value }

end Graph

end PartyGraph
