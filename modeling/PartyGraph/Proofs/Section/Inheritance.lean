import PartyGraph.Proofs.Section.Mentions
import PartyGraph.Proofs.Section.Mirror

/-!
# Names come from the nearest section that gives them

Resolution goes from the top of a tree to its leaves and carries a domain and an environment along.
Reading the tree the other way, a party has each of them from the nearest section around it that
gives one, its own among them, and the two need not come from the same section: a full name always
gives a domain but not always an environment. The party name alone is never inherited. It is what
tells a section of a party from a group.

A section may give a name in two ways, and may not use both for one name. Where a tree resolves it
never does, so what a section gives can be told by preferring its full name.

## Main definitions

* `PartySection.domain?`, `PartySection.party?`, `PartySection.environment?`: what a section gives.
* `FullName.NamedBy`: a name is the one that a chain of sections gives.
* `PartySection.Names`: a party has the name that the sections around it give.
* `PartySection.NamesInherited`: all parties of a tree and of an addition have.

## Main results

* `PartySection.names_eq_ok`: what a section does not give, it has from around it.
* `named_section`: the induction over sections.
* `namesInherited`: whole trees and additions.
-/

namespace PartyGraph

/-! ### Names that a section gives -/

namespace PartySection

/-- A name that a section gives, if it does: a part of its full name, or else a text of its own. A
text that is at fault gives an error. -/
def given? {α : Type} (s : PartySection) (part : NameParts → Option α)
    (read : String → Except NameError α) (own : Option String) : Option (Except NameError α) :=
  match s.fullName.map NameParts.parse with
  | some (.error e) => some (.error e)
  | some (.ok parts) => ((part parts).map .ok).or (own.map read)
  | none => own.map read

/-- The domain that a section gives. -/
def domain? (s : PartySection) : Option (Except NameError Domain) :=
  s.given? (fun parts => some parts.domain) Domain.read s.domainName

/-- The party name that a section gives. -/
def party? (s : PartySection) : Option (Except NameError Segment) :=
  s.given? (·.party) readParty s.partyName

/-- The environment that a section gives. -/
def environment? (s : PartySection) : Option (Except NameError Segment) :=
  s.given? (·.environment) readEnvironment s.environmentName

end PartySection

/-- What a section does not give, it has from around it. -/
theorem PartySection.names_eq_ok {s : PartySection} {path : SectionPath} {domain : Domain}
    {party : Option Segment} {environment : Segment} {names : SectionNames}
    (h : s.names path domain party environment = .ok names) :
    ∃ (ownDomain : Option Domain) (ownParty ownEnvironment : Option Segment),
      s.domain? = ownDomain.map .ok ∧ s.party? = ownParty.map .ok ∧
      s.environment? = ownEnvironment.map .ok ∧
      names = ⟨ownDomain.getD domain, ownParty.or party, ownEnvironment.getD environment⟩ := by
  rw [PartySection.names] at h
  obtain ⟨ownParty, hparty, h⟩ := Except.exists_of_bind_eq_ok h
  obtain ⟨ownEnvironment, henvironment, h⟩ := Except.exists_of_bind_eq_ok h
  have hparty := map_of_readOptional (SectionPath.blame_eq_ok.mp hparty)
  have henvironment := map_of_readOptional (SectionPath.blame_eq_ok.mp henvironment)
  split at h
  · next hfull =>
    obtain ⟨ownDomain, hdomain, h⟩ := Except.exists_of_bind_eq_ok h
    have hdomain := map_of_readOptional (SectionPath.blame_eq_ok.mp hdomain)
    cases h
    exact ⟨ownDomain, ownParty, ownEnvironment, by simp [domain?, given?, hfull, hdomain],
      by simp [party?, given?, hfull, hparty], by simp [environment?, given?, hfull, henvironment],
      by simp⟩
  · next text hfull =>
    obtain ⟨parts, hparts, h⟩ := Except.exists_of_bind_eq_ok h
    have hparts := SectionPath.blame_eq_ok.mp hparts
    dsimp only at h
    split at h
    · cases h
    · obtain ⟨chosenParty, hchosenParty, h⟩ := Except.exists_of_bind_eq_ok h
      obtain ⟨chosenEnvironment, hchosenEnvironment, h⟩ := Except.exists_of_bind_eq_ok h
      obtain rfl := eq_or_of_choose hchosenParty
      obtain rfl := eq_or_of_choose hchosenEnvironment
      cases h
      refine ⟨some parts.domain, parts.party.or ownParty, parts.environment.or ownEnvironment,
        by simp [domain?, given?, hfull, hparts], ?_, ?_, by simp⟩
      · simp [party?, given?, hfull, hparts, hparty, Option.map_or]
      · simp [environment?, given?, hfull, hparts, henvironment, Option.map_or]

/-! ### Names along a chain of sections -/

/-- Whether a name has its domain and its environment each from the nearest section of a chain that
gives one, or from above when none does, and its party name from the first section of the chain. -/
structure FullName.NamedBy (name : FullName) (chain : List PartySection) (domain : Domain)
    (environment : Segment) : Prop where
  domain : (chain.findSome? PartySection.domain?).getD (.ok domain) = .ok name.domain
  environment : (chain.findSome? PartySection.environment?).getD (.ok environment)
    = .ok name.environment
  party : chain.head?.bind PartySection.party? = some (.ok name.party)

theorem getD_map_ok {α : Type} (own : Option α) (base : α) :
    (own.map Except.ok).getD (.ok base) = (.ok (own.getD base) : Except NameError α) := by
  cases own <;> rfl

/-- A section at the end of a chain gives what no section before it does. -/
theorem getD_findSome?_concat {α : Type} {give : PartySection → Option (Except NameError α)}
    {chain : List PartySection} {s : PartySection} {base inner a : α}
    (h : (chain.findSome? give).getD (.ok inner) = .ok a)
    (hs : (give s).getD (.ok base) = .ok inner) :
    ((chain ++ [s]).findSome? give).getD (.ok base) = .ok a := by
  rw [List.findSome?_append]
  cases hchain : chain.findSome? give with
  | some r =>
    rw [hchain] at h
    exact h
  | none =>
    rw [hchain] at h
    cases h
    rw [Option.none_or]
    simpa using hs

namespace FullName.NamedBy

variable {s : PartySection} {path : SectionPath} {domain : Domain} {environment : Segment}
  {names : SectionNames}

/-- The party of a section that names one. -/
theorem own {party : Segment} (h : s.names path domain none environment = .ok names)
    (hparty : names.party = some party) :
    (FullName.mk names.domain party names.environment).NamedBy [s] domain environment := by
  obtain ⟨ownDomain, ownParty, ownEnvironment, hd, hp, he, rfl⟩ := PartySection.names_eq_ok h
  obtain rfl : ownParty = some party := by simpa using hparty
  exact ⟨by simp [hd], by simp [he], by simp [hp]⟩

/-- A party with a name from within a section that may name one itself. -/
theorem concat {name : FullName} {chain : List PartySection}
    (h : name.NamedBy chain names.domain names.environment) {party : Option Segment}
    (hs : s.names path domain party environment = .ok names) :
    name.NamedBy (chain ++ [s]) domain environment := by
  obtain ⟨ownDomain, ownParty, ownEnvironment, hd, -, he, rfl⟩ := PartySection.names_eq_ok hs
  refine ⟨getD_findSome?_concat h.domain ?_, getD_findSome?_concat h.environment ?_, ?_⟩
  · rw [hd, getD_map_ok]
  · rw [he, getD_map_ok]
  · cases chain with
    | nil => exact absurd h.party (by simp)
    | cons first rest => exact h.party

end FullName.NamedBy

/-! ### The induction over sections -/

/-- Whether a party belongs to a section within one that stands at a path, or to this one, and has
the name that the sections from there outwards give. -/
def PartySection.Names (s : PartySection) (path : SectionPath) (domain : Domain)
    (environment : Segment) (c : PartyConfiguration) : Prop :=
  ∃ indices chain, c.path = ⟨path.origin, path.indices ++ indices⟩ ∧
    s.chain? indices = some chain ∧ c.fullName.NamedBy chain domain environment

/-- Whether a party has a name from one of consecutive sections, of which the first has number `i`
in the section at a path. -/
def NamedAmong (ss : List PartySection) (path : SectionPath) (i : Nat) (domain : Domain)
    (environment : Segment) (c : PartyConfiguration) : Prop :=
  ∃ (j : Nat) (s : PartySection), ss[j]? = some s ∧
    s.Names (path.child (i + j)) domain environment c

/-- What has a name from the sections within a section has it from the section. -/
theorem NamedAmong.names {s : PartySection} {path : SectionPath} {domain : Domain}
    {environment : Segment} {party : Option Segment} {names : SectionNames}
    {c : PartyConfiguration} (h : NamedAmong s.parties path 0 names.domain names.environment c)
    (hs : s.names path domain party environment = .ok names) :
    s.Names path domain environment c := by
  obtain ⟨j, child, hj, indices, chain, hpath, hchain, hnamed⟩ := h
  refine ⟨j :: indices, chain ++ [s], ?_, ?_, hnamed.concat hs⟩
  · simp [hpath, SectionPath.child]
  · simp [PartySection.chain?, hj, hchain]

mutual

theorem named_section (index : NameIndex) (scope : Scope) (path : SectionPath) :
    (s : PartySection) → {index' : NameIndex} → {ps : Parties} →
    resolveSection index scope path s = .ok (index', ps) →
    ∀ c ∈ ps.all, s.Names path scope.domain scope.environment c
  | ⟨fullName, domainName, partyName, environmentName, address, allow, disallow, settings,
      parties⟩, index', ps, h => by
    have hres := resolves_of_eq_ok h
    clear h
    cases hres with
    | group hnames _ _ h =>
      exact fun c hc => (named_sections _ _ path 0 parties h c hc).names hnames
    | tenant hnames _ hparty _ _ h =>
      intro c hc
      rcases List.mem_cons.mp ((Parties.all_tenant _ _).mem_iff.mp hc) with rfl | hc
      · exact ⟨[], [_], by simp, rfl, .own hnames hparty⟩
      · exact (named_sections _ _ path 0 parties h c hc).names hnames
    | remote hnames _ hparty _ _ =>
      intro c hc
      obtain rfl : c = _ := by simpa [Parties.all, Parties.remote] using hc
      exact ⟨[], [_], by simp, rfl, .own hnames hparty⟩

theorem named_sections (index : NameIndex) (scope : Scope) (path : SectionPath) (i : Nat) :
    (ss : List PartySection) → {index' : NameIndex} → {ps : Parties} →
    resolveSections index scope path i ss = .ok (index', ps) →
    ∀ c ∈ ps.all, NamedAmong ss path i scope.domain scope.environment c
  | [], index', ps, h => by
    rw [resolveSections] at h
    cases h
    exact fun c hc => absurd hc List.not_mem_nil
  | s :: rest, index', ps, h => by
    obtain ⟨index₁, first, others, hs, hrest, rfl⟩ := resolveSections_cons_eq_ok.mp h
    intro c hc
    rcases List.mem_append.mp ((Parties.all_append first others).mem_iff.mp hc) with hc | hc
    · exact ⟨0, s, rfl, named_section index scope (path.child i) s hs c hc⟩
    · obtain ⟨j, child, hj, hc⟩ := named_sections index₁ scope path (i + 1) rest hrest c hc
      exact ⟨j + 1, child, hj, by rwa [Nat.add_right_comm] at hc⟩

end

/-! ### Whole trees -/

/-- The name of the root is made of the names of its section. -/
theorem exists_names_of_resolveRootParty {s : PartySection} {root : PartyConfiguration}
    (h : resolveRootParty s = .ok root) :
    ∃ names : SectionNames,
      s.names SectionPath.root Domain.default (some defaultParty) defaultEnvironment = .ok names ∧
      root.fullName = ⟨names.domain, names.party.getD defaultParty, names.environment⟩ := by
  rw [resolveRootParty] at h
  obtain ⟨names, hnames, h⟩ := Except.exists_of_bind_eq_ok h
  dsimp only at h
  split at h
  · cases h
  · obtain ⟨policy, -, h⟩ := Except.exists_of_bind_eq_ok h
    cases h
    exact ⟨names, hnames, rfl⟩

/-- How the parties come by their names that a section declares, be it the root of a tree or an
addition to a party. -/
structure PartySection.NamesInherited (s : PartySection) : Prop where
  /-- The root has the names that its section gives, and those of the unnamed otherwise. -/
  root : ∀ r, resolveRoot s = .ok r →
    s.domain?.getD (.ok Domain.default) = .ok r.root.fullName.domain ∧
    s.party?.getD (.ok defaultParty) = .ok r.root.fullName.party ∧
    s.environment?.getD (.ok defaultEnvironment) = .ok r.root.fullName.environment
  /-- All others are named by the sections from their own out to that of the root. -/
  parties : ∀ r, resolveRoot s = .ok r → ∀ c ∈ r.parties.all, c.path.origin = .root ∧
    ∃ chain, s.chain? c.path.indices = some chain ∧
      c.fullName.NamedBy chain Domain.default defaultEnvironment
  /-- What an addition leaves open is as in the name of the owner. -/
  increment : ∀ owner ps, resolveIncrement owner s = .ok ps →
    ∀ c ∈ ps.all, c.path.origin = .increment ∧
      ∃ chain, s.chain? c.path.indices = some chain ∧
        c.fullName.NamedBy chain owner.fullName.domain owner.fullName.environment

/-- **Each name is that of the nearest section that gives one.** -/
theorem namesInherited (s : PartySection) : s.NamesInherited := by
  constructor
  case root =>
    intro r h
    obtain ⟨names, hnames, hname⟩ := exists_names_of_resolveRootParty (resolveRoot_eq_ok.mp h).1
    obtain ⟨ownDomain, ownParty, ownEnvironment, hd, hp, he, rfl⟩ :=
      PartySection.names_eq_ok hnames
    rw [hname, hd, hp, he, getD_map_ok, getD_map_ok, getD_map_ok]
    cases ownParty <;> exact ⟨rfl, rfl, rfl⟩
  case parties =>
    intro r h c hc
    obtain ⟨hroot, index, hs⟩ := resolveRoot_eq_ok.mp h
    obtain ⟨names, hnames, hname⟩ := exists_names_of_resolveRootParty hroot
    have hamong := named_sections _ _ SectionPath.root 0 s.parties hs c hc
    rw [PartyConfiguration.scope, hname] at hamong
    obtain ⟨indices, chain, hpath, hchain, hnamed⟩ := hamong.names hnames
    rw [hpath]
    exact ⟨rfl, chain, hchain, hnamed⟩
  case increment =>
    intro owner ps h c hc
    obtain ⟨index, hs⟩ := resolveIncrement_eq_ok.mp h
    obtain ⟨indices, chain, hpath, hchain, hnamed⟩ := named_section _ _ _ s hs c hc
    rw [hpath]
    exact ⟨rfl, chain, hchain, hnamed⟩

/-- A tenant domain in a group that gives an environment, with a group in it that gives a domain. -/
def layeredSection : PartySection := { PartySection.blank with
  fullName := some "D/$P/#Root"
  parties := [{ PartySection.blank with
    environmentName := some "#Prod"
    parties := [{ PartySection.blank with
      fullName := some "Acme/$Acme"
      parties := [{ PartySection.blank with
        domainName := some "Acme/Sales"
        parties := [{ PartySection.blank with partyName := some "$Crm" }] }] }] }] }

/-- The domain of the innermost party and its environment are of different sections. -/
example : (resolveRoot layeredSection).toOption.map (fun r => r.parties.all.map (·.fullName.text))
    = some ["Acme/$Acme/#Prod", "Acme/Sales/$Crm/#Prod"] := by
  decide +kernel

end PartyGraph
