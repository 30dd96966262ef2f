import PartyGraph.Name.FullName
import PartyGraph.Section.Basic
import PartyGraph.Section.Error

/-!
# Names given by a section

A section gives its names one by one or, as far as a full name goes, in one text. A name may not be
given twice, and the domain not beside a full name. What it leaves open it has from the section
around it.

## Main definitions

* `SectionNames`: the names of a section, its own and inherited.
* `PartySection.names`: reads them.
-/

namespace PartyGraph

/-- The names in force within a section. -/
structure SectionNames where
  domain : Domain
  party : Option Segment
  environment : Segment
deriving DecidableEq, Repr

/-- Tells in which section a name is at fault. -/
def SectionPath.blame {α : Type} (path : SectionPath) : Except NameError α → Except ConfigError α
  | .ok a => .ok a
  | .error e => .error (.invalidName path.text e)

/-- Reads a name that may be absent. -/
def readOptional {α : Type} (read : String → Except NameError α) :
    Option String → Except NameError (Option α)
  | none => .ok none
  | some text =>
    match read text with
    | .ok a => .ok (some a)
    | .error e => .error e

/-- Chooses between the two places that may give a name; `conflict` is the text of the error when
both do. -/
def choose {α : Type} (path : SectionPath) (conflict : String) :
    Option α → Option α → Except ConfigError (Option α)
  | some _, some _ => .error (.nameConflict path.text conflict)
  | some a, none => .ok (some a)
  | none, own => .ok own

/-- The names of a section, where `domain`, `party` and `environment` hold for what it leaves open.
Faults are looked for in the party name, the environment name and the full name, in this order, and
then among their combinations. -/
def PartySection.names (s : PartySection) (path : SectionPath) (domain : Domain)
    (party : Option Segment) (environment : Segment) : Except ConfigError SectionNames := do
  let ownParty ← path.blame (readOptional readParty s.partyName)
  let ownEnvironment ← path.blame (readOptional readEnvironment s.environmentName)
  match s.fullName with
  | none =>
    let ownDomain ← path.blame (readOptional Domain.read s.domainName)
    return ⟨ownDomain.getD domain, ownParty <|> party, ownEnvironment.getD environment⟩
  | some fullName =>
    let parts ← path.blame (NameParts.parse fullName)
    if s.domainName.isSome then
      throw (.nameConflict path.text "domain_name cannot be used when full_name is defined")
    let chosenParty ←
      choose path "party_name cannot be used when full_name defines it" parts.party ownParty
    let chosenEnvironment ←
      choose path "environment_name cannot be used when full_name defines it"
        parts.environment ownEnvironment
    return ⟨parts.domain, chosenParty <|> party, chosenEnvironment.getD environment⟩

end PartyGraph
