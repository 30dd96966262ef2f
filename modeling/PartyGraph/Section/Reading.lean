import PartyGraph.Section.Basic
import PartyGraph.Section.Setting

/-!
# Sections read from tables

A section is written as a table. Some keys have a meaning, and their values must be of the right
kind; all others are settings. Where a section is written as a moment, the moment is taken for the
table that holds its text under the moment key, which as a key of the section itself has no
special meaning.

## Main definitions

* `PartySection.ofTable?`: the section that a table describes.
-/

namespace PartyGraph

/-- A text, if the value is one. -/
def Toml.Value.text? : Toml.Value → Option String
  | .text s => some s
  | _ => none

/-- The texts of an array, if the value is one of nothing else. -/
def Toml.Value.texts? : Toml.Value → Option (List String)
  | .array items => items.mapM Toml.Value.text?
  | _ => none

namespace PartySection

/-- The section with a setting. -/
def withSetting (s : PartySection) (key : String) (v : Toml.Value) : PartySection :=
  { s with settings := s.settings ++ [(key, v)] }

/-- The section with the value of a key other than that of its parties. -/
def withEntry (s : PartySection) (key : String) (v : Toml.Value) : Option PartySection :=
  match key with
  | "full_name" => v.text?.map fun t => { s with fullName := some t }
  | "domain_name" => v.text?.map fun t => { s with domainName := some t }
  | "party_name" => v.text?.map fun t => { s with partyName := some t }
  | "environment_name" => v.text?.map fun t => { s with environmentName := some t }
  | "address" => v.text?.map fun t => { s with address := some t }
  | "allow_features" => v.texts?.map fun ts => { s with allow := ts }
  | "disallow_features" => v.texts?.map fun ts => { s with disallow := ts }
  | _ => v.setting?.map (s.withSetting key)

mutual

/-- The section with the entries of a table. -/
def withEntries (s : PartySection) : List (String × Toml.Value) → Option PartySection
  | [] => some s
  | (key, v) :: rest =>
    match (if key = "parties" then (sectionsOf? v).map fun ps => { s with parties := ps }
      else s.withEntry key v) with
    | none => none
    | some s => withEntries s rest

/-- The sections of an array, if the value is one of nothing else. -/
def sectionsOf? : Toml.Value → Option (List PartySection)
  | .array items => sectionsIn? items
  | _ => none

/-- The sections that values describe. -/
def sectionsIn? : List Toml.Value → Option (List PartySection)
  | [] => some []
  | v :: rest =>
    match sectionOf? v, sectionsIn? rest with
    | some s, some ss => some (s :: ss)
    | _, _ => none

/-- The section that a value describes, if it is a table. -/
def sectionOf? : Toml.Value → Option PartySection
  | .table entries => withEntries blank entries
  | .moment m => some (blank.withSetting momentKey (.text m.text))
  | _ => none

end

/-- The section that a table describes. -/
def ofTable? (t : Toml.Table) : Option PartySection := withEntries blank t

end PartySection

end PartyGraph
