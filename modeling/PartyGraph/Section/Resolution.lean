import PartyGraph.Section.Configuration
import PartyGraph.Section.Names

/-!
# Resolution of section trees

A tree of sections is resolved from the top: names and policies pass down, and each section that
names a party becomes a configuration. One without an address whose party has the name of its
innermost domain is a tenant domain and owns the remote parties of the sections in it; any other is
a remote party, and sections in it are not read. A section without a party name is a group: its
parties are those of its sections.

## Main definitions

* `Scope`: what passes down.
* `NameIndex`: the names met so far, none of which may be met again.
* `resolveSection`: one section, with all in it.
* `resolveRoot`, `resolveIncrement`: a whole tree, and an addition to a party of one.
-/

namespace PartyGraph

/-- What a section passes down to those in it. -/
structure Scope where
  domain : Domain
  environment : Segment
  policy : FeaturePolicy

/-- What a party passes down to the sections in its own or added to it. -/
def PartyConfiguration.scope (c : PartyConfiguration) : Scope :=
  ⟨c.fullName.domain, c.fullName.environment, c.policy⟩

/-- The keys of names met, with the path of the section that gave each. -/
abbrev NameIndex := List (String × String)

namespace NameIndex

/-- Enters a name; one already met is an error. -/
def enter (index : NameIndex) (name : FullName) (path : SectionPath) :
    Except ConfigError NameIndex :=
  match List.lookup name.key index with
  | some existing => .error (.duplicateParty name.text path.text existing)
  | none => .ok ((name.key, path.text) :: index)

end NameIndex

/-- The policy of a section within `parent`. -/
def PartySection.policy (s : PartySection) (path : SectionPath) (parent : FeaturePolicy) :
    Except ConfigError FeaturePolicy :=
  match FeaturePolicy.inherit parent s.allow s.disallow with
  | .ok policy => .ok policy
  | .error features => .error (.featureOverlap path.text features)

/-- Whether a section without an address declares the domain that its party is named for. -/
def PartySection.declaresDomain (s : PartySection) (name : FullName) : Bool :=
  s.address.isNone && name.namesItsDomain

mutual

/-- The parties that a section and those in it declare, and the index with their names. -/
def resolveSection (index : NameIndex) (scope : Scope) (path : SectionPath) :
    PartySection → Except ConfigError (NameIndex × Parties)
  | ⟨fullName, domainName, partyName, environmentName, address, allow, disallow, settings,
      parties⟩ => do
    let s : PartySection :=
      ⟨fullName, domainName, partyName, environmentName, address, allow, disallow, settings,
        parties⟩
    let names ← s.names path scope.domain none scope.environment
    let policy ← s.policy path scope.policy
    let inner : Scope := ⟨names.domain, names.environment, policy⟩
    match names.party with
    | none => resolveSections index inner path 0 parties
    | some party =>
      let name : FullName := ⟨names.domain, party, names.environment⟩
      let index ← index.enter name path
      if s.declaresDomain name then
        let (index, nested) ← resolveSections index inner path 0 parties
        return (index, Parties.tenant ⟨.tenantDomain, name, none, policy, settings, path⟩ nested)
      else
        return (index, Parties.remote ⟨.remote, name, address, policy, settings, path⟩)

/-- The parties of consecutive children of the section at `path`, of which the first has number
`i`. -/
def resolveSections (index : NameIndex) (scope : Scope) (path : SectionPath) (i : Nat) :
    List PartySection → Except ConfigError (NameIndex × Parties)
  | [] => .ok (index, Parties.none)
  | s :: rest => do
    let (index, parties) ← resolveSection index scope (path.child i) s
    let (index, others) ← resolveSections index scope path (i + 1) rest
    return (index, parties ++ others)

end

/-- The configuration of the root that a section declares, its children aside. -/
def resolveRootParty (s : PartySection) : Except ConfigError PartyConfiguration := do
  let names ←
    s.names SectionPath.root Domain.default (some defaultParty) defaultEnvironment
  let name : FullName := ⟨names.domain, names.party.getD defaultParty, names.environment⟩
  if name.isExternal then throw .externalRoot
  let policy ← s.policy SectionPath.root FeaturePolicy.none
  return ⟨.root, name, none, policy, s.settings, SectionPath.root⟩

/-- Resolves the tree of an identity. -/
def resolveRoot (s : PartySection) : Except ConfigError ResolvedRoot := do
  let root ← resolveRootParty s
  let index ← NameIndex.enter [] root.fullName root.path
  let (_, parties) ← resolveSections index root.scope SectionPath.root 0 s.parties
  return ⟨root, parties⟩

/-- Resolves an addition to the party `owner`. -/
def resolveIncrement (owner : PartyConfiguration) (s : PartySection) :
    Except ConfigError Parties := do
  let (_, parties) ← resolveSection [] owner.scope SectionPath.increment s
  return parties

end PartyGraph
