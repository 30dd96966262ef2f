import PartyGraph.Name.Domain
import PartyGraph.Text.Blank

/-!
# Full names

A party is addressed by a domain, a name within it and an environment:

```text
Acme/Sales/$Billing/#Prod
```

The party name is marked by a dollar sign and the environment by a hash sign; an environment that
is not given is `#Dev`. Names that differ only in case denote the same party.

## Main definitions

* `readParty`, `readEnvironment`: single names, with or without their mark.
* `NameParts`, `NameParts.parse`: a text of which only the domain is required.
* `FullName`, `FullName.new`, `FullName.parse`: complete names.
* `FullName.key`: the text by which names are compared.
-/

namespace PartyGraph

/-- The characters without `mark`, when they begin with it. -/
def unmarked (mark : Char) (cs : List Char) : List Char :=
  match cs with
  | c :: rest => if c = mark then rest else cs
  | [] => []

/-- Reads a party name, marked or not. -/
def readParty (text : String) : Except NameError Segment :=
  match Segment.ofChars? (unmarked '$' text.toList) with
  | some s => .ok s
  | none => .error (.invalidParty text)

/-- Reads an environment name, marked or not. -/
def readEnvironment (text : String) : Except NameError Segment :=
  match Segment.ofChars? (unmarked '#' text.toList) with
  | some s => .ok s
  | none => .error (.invalidEnvironment text)

/-- Whether a text is a party name, marked or not. -/
def isPartyName (text : String) : Bool := isSegment (unmarked '$' text.toList)

/-- Whether a text is an environment name, marked or not. -/
def isEnvironmentName (text : String) : Bool := isSegment (unmarked '#' text.toList)

/-- A party name with its mark. -/
def partyText (s : Segment) : String := String.ofList ('$' :: s.chars)

/-- An environment name with its mark. -/
def environmentText (s : Segment) : String := String.ofList ('#' :: s.chars)

/-- The environment of names that give none. -/
def defaultEnvironment : Segment := ⟨['D', 'e', 'v'], by decide⟩

/-- The party name of a root that gives none. -/
def defaultParty : Segment := Reserved.undefined.segment

/-- What a name text gives: a domain, and perhaps a party and an environment. -/
structure NameParts where
  domain : Domain
  party : Option Segment
  environment : Option Segment
deriving DecidableEq, Repr

namespace NameParts

/-- The segments of a name text read so far. -/
structure Progress where
  path : List Segment
  party : Option Segment
  environment : Option Segment

/-- Reads one piece of the name `whole`: a hash sign marks the environment, which comes last, a
dollar sign the party, and all before the party is the domain. -/
def step (whole : String) (p : Progress) (piece : List Char) : Except NameError Progress :=
  if p.environment.isSome then .error (.invalidEnvironment whole)
  else match piece with
    | '#' :: rest =>
      match Segment.ofChars? rest with
      | some s => .ok { p with environment := some s }
      | none => .error (.invalidEnvironment (String.ofList piece))
    | '$' :: rest =>
      match p.party, Segment.ofChars? rest with
      | none, some s => .ok { p with party := some s }
      | _, _ => .error (.invalidParty (String.ofList piece))
    | _ =>
      match p.party, Segment.ofChars? piece with
      | none, some s => .ok { p with path := p.path ++ [s] }
      | _, _ => .error (.invalidDomain whole)

/-- Reads pieces in order, up to the first that does not fit. -/
def steps (whole : String) (p : Progress) : List (List Char) → Except NameError Progress
  | [] => .ok p
  | piece :: rest =>
    match step whole p piece with
    | .ok next => steps whole next rest
    | .error e => .error e

/-- Reads the parts of a name. White space around the text does not count. -/
def parse (text : String) : Except NameError NameParts :=
  let trimmed := Text.trim text
  if trimmed.isEmpty then .error .empty
  else match steps trimmed ⟨[], none, none⟩ (Text.pieces '/' trimmed.toList) with
    | .error e => .error e
    | .ok p =>
      if p.path.isEmpty then .error (.invalidDomain trimmed)
      else
        let path := String.ofList (Text.joined '/' (p.path.map Segment.chars))
        match Domain.ofPath path p.path with
        | .error e => .error e
        | .ok domain => .ok ⟨domain, p.party, p.environment⟩

end NameParts

/-- The complete name of a party. -/
structure FullName where
  domain : Domain
  party : Segment
  environment : Segment
deriving DecidableEq, Repr

namespace FullName

/-- Builds a name from three texts; the first that is at fault is reported. -/
def new (domain party environment : String) : Except NameError FullName := do
  let d ← Domain.read domain
  let p ← readParty party
  let e ← readEnvironment environment
  return ⟨d, p, e⟩

/-- Reads a complete name. The environment may be left out. -/
def parse (text : String) : Except NameError FullName := do
  let parts ← NameParts.parse text
  match parts.party with
  | none => .error (.missingParty text)
  | some party => return ⟨parts.domain, party, parts.environment.getD defaultEnvironment⟩

/-- Characters of the text of a name. -/
def chars (n : FullName) : List Char :=
  n.domain.chars ++ '/' :: '$' :: n.party.chars ++ '/' :: '#' :: n.environment.chars

/-- Text of a name. -/
def text (n : FullName) : String := String.ofList n.chars

instance : ToString FullName := ⟨text⟩

/-- The text by which names are compared: names are ASCII, so lower case is that of ASCII. -/
def key (n : FullName) : String := String.ofList (n.chars.map Char.toLower)

/-- Whether two names denote the same party. -/
def sameAs (a b : FullName) : Bool := a.key == b.key

/-- Whether the party is one of others. -/
def isExternal (n : FullName) : Bool := n.domain.isExternal

/-- Whether the party has the name of its innermost domain, as the party that stands for a domain
does. -/
def namesItsDomain (n : FullName) : Bool := n.party.sameAs n.domain.last

end FullName

end PartyGraph
