import PartyGraph.Proofs.Name.Format
import PartyGraph.Proofs.Section.Mirror

/-!
# Names given one by one or in one text

A section may give its domain, its party and its environment in a text of their own each, or all in
one. The two ways are read by different code: single names with or without their mark and no white
space around them, the one text piece by piece after white space around it is gone. Where the first
way is read, the second is read as the same names, and so a section may be rewritten wherever it
stands: the root, a group, a tenant domain, a remote party, or within any of them.

The converse is not true: no domain begins with a blank, and the one text may.

That the section may stand anywhere is an induction along its place. What it carries is that one
section stands for another: it reads its names wherever the other does, agrees with it in what is
not a name, and its children resolve as those of the other.

## Main definitions

* `wholeName`: the one text for single names.
* `PartySection.inOneText`, `PartySection.modifyAt`: a section rewritten, and the one at a place.
* `PartySection.StandsFor`: a section does what another one does.

## Main results

* `parse_wholeName`: the one text is read as the single names are.
* `PartySection.standsFor_inOneText`, `PartySection.standsFor_modifyAt`: the section itself, and the
  tree around it.
* `PartySection.StandsFor.resolveRoot`, `PartySection.StandsFor.resolveIncrement`: whole trees and
  additions.
* `resolve_inOneText`: all of it.
-/

namespace PartyGraph

/-! ### The one text -/

/-- A text with its mark, whether it is written with it or not. -/
def marked (mark : Char) (text : String) : String :=
  String.ofList (mark :: unmarked mark text.toList)

/-- The text that gives a domain, and perhaps a party and an environment. -/
def wholeName (domain : String) (party environment : Option String) : String :=
  domain ++ party.elim "" (fun p => "/" ++ marked '$' p) ++
    environment.elim "" (fun e => "/" ++ marked '#' e)

theorem readParty_eq_ok {text : String} {s : Segment} (h : readParty text = .ok s) :
    unmarked '$' text.toList = s.chars := by
  rw [readParty] at h
  split at h
  · next hs =>
    cases h
    exact (Segment.ofChars?_eq_some.mp hs).symm
  · cases h

theorem readEnvironment_eq_ok {text : String} {s : Segment} (h : readEnvironment text = .ok s) :
    unmarked '#' text.toList = s.chars := by
  rw [readEnvironment] at h
  split at h
  · next hs =>
    cases h
    exact (Segment.ofChars?_eq_some.mp hs).symm
  · cases h

/-- What a single name that may be absent adds to the one text. -/
theorem toList_elim_marked {mark : Char} {read : String → Except NameError Segment}
    (hread : ∀ {text s}, read text = .ok s → unmarked mark text.toList = s.chars)
    {text : Option String} {s : Option Segment} (h : text.map read = s.map .ok) :
    (text.elim "" fun t => "/" ++ marked mark t).toList =
      s.elim [] fun s => '/' :: mark :: s.chars := by
  cases text with
  | none =>
    obtain rfl : s = none := by simpa using h.symm
    rfl
  | some text =>
    obtain ⟨s, rfl, hs⟩ := Option.map_eq_some_iff.mp h.symm
    rw [Option.elim_some, Option.elim_some, marked, hread hs.symm, String.toList_append,
      String.toList_ofList, String.toList_ofList]
    rfl

theorem Segment.ofPieces?_eq_some {ps : List (List Char)} {ss : List Segment}
    (h : ofPieces? ps = some ss) : ps = ss.map Segment.chars := by
  induction ps generalizing ss with
  | nil =>
    cases h
    rfl
  | cons p ps ih =>
    rw [ofPieces?, List.mapM_cons] at h
    obtain ⟨s, hs, h⟩ := Option.bind_eq_some_iff.mp h
    obtain ⟨rest, hrest, h⟩ := Option.bind_eq_some_iff.mp h
    cases h
    rw [List.map_cons, ih hrest, Segment.ofChars?_eq_some.mp hs]

/-- What a text that is a domain looks like. -/
theorem Domain.read_eq_ok {text : String} {d : Domain} (h : read text = .ok d) :
    ∃ first rest, text.toList = Text.joined '/' ((first :: rest).map Segment.chars) ∧
      ofSegments first rest = some d := by
  rw [read] at h
  split at h
  · cases h
  · next segments hsegments =>
    have htext : text.toList = Text.joined '/' (segments.map Segment.chars) := by
      rw [← Segment.ofPieces?_eq_some hsegments, Text.joined_pieces]
    cases segments with
    | nil => cases h
    | cons first rest =>
      rw [ofPath] at h
      split at h
      · next hd =>
        cases h
        exact ⟨first, rest, htext, hd⟩
      · cases h

theorem joined_append_toList {sep : Char} {ps : List (List Char)} (hps : ps ≠ [])
    (q : Option (List Char)) :
    Text.joined sep (ps ++ q.toList) = Text.joined sep ps ++ q.elim [] (sep :: ·) := by
  cases q with
  | none => simp
  | some q => exact Text.joined_concat hps q

/-- The pieces of a name text, put together. -/
theorem NameParts.joined_pieces {path : List Segment} (hpath : path ≠ [])
    (party environment : Option Segment) :
    Text.joined '/' (Progress.pieces ⟨path, party, environment⟩) =
      Text.joined '/' (path.map Segment.chars) ++
        party.elim [] (fun s => '/' :: '$' :: s.chars) ++
        environment.elim [] (fun s => '/' :: '#' :: s.chars) := by
  have hmap : path.map Segment.chars ≠ [] := by simpa using hpath
  rw [Progress.pieces, joined_append_toList (List.append_ne_nil_of_left_ne_nil hmap _),
    joined_append_toList hmap, Option.elim_map, Option.elim_map]
  rfl

/-- **The one text is read as the single names are.** -/
theorem parse_wholeName {domain : String} {party environment : Option String} {d : Domain}
    {p e : Option Segment} (hdomain : Domain.read domain = .ok d)
    (hparty : party.map readParty = p.map .ok)
    (henvironment : environment.map readEnvironment = e.map .ok) :
    NameParts.parse (wholeName domain party environment) = .ok ⟨d, p, e⟩ := by
  obtain ⟨first, rest, htext, hd⟩ := Domain.read_eq_ok hdomain
  have hchars : (wholeName domain party environment).toList =
      Text.joined '/' (NameParts.Progress.pieces ⟨first :: rest, p, e⟩) := by
    rw [wholeName, String.toList_append, String.toList_append, htext,
      toList_elim_marked readParty_eq_ok hparty,
      toList_elim_marked readEnvironment_eq_ok henvironment,
      NameParts.joined_pieces (List.cons_ne_nil first rest)]
  have htrim : Text.trimChars ([] ++ (wholeName domain party environment).toList ++ []) =
      (wholeName domain party environment).toList :=
    Text.trimChars_append (by simp) (by simp) (hchars ▸ NameParts.isBlank_pieces _)
  rw [List.nil_append, List.append_nil] at htrim
  exact NameParts.parse_eq_ok.mpr ⟨first, rest, htrim.trans hchars, hd⟩

/-! ### The section -/

namespace PartySection

/-- The section with its domain and the names beside it in one text. -/
def inOneText (s : PartySection) (domain : String) : PartySection :=
  { s with
    fullName := some (wholeName domain s.partyName s.environmentName)
    domainName := none
    partyName := none
    environmentName := none }

/-- The tree in which the section at a place is changed. -/
def modifyAt (f : PartySection → PartySection) : List Nat → PartySection → PartySection
  | [], s => f s
  | i :: is, s => { s with parties := s.parties.modify i (modifyAt f is) }

/-- A section does what another one does: it reads its names wherever the other does, has the rest
of it, and its children resolve as those of the other. -/
structure StandsFor (t s : PartySection) : Prop where
  names : ∀ path domain party environment,
    Except.Yields (s.names path domain party environment) (t.names path domain party environment)
  address : t.address = s.address
  allow : t.allow = s.allow
  disallow : t.disallow = s.disallow
  settings : t.settings = s.settings
  parties : ∀ index scope path i, Except.Yields (resolveSections index scope path i s.parties)
    (resolveSections index scope path i t.parties)

/-- A section with its names in one text stands for the section with single names. -/
theorem standsFor_inOneText {s : PartySection} {domain : String} (hfull : s.fullName = none)
    (hdomain : s.domainName = some domain) : (s.inOneText domain).StandsFor s where
  names path outer party environment := by
    intro names h
    rw [PartySection.names, hfull, hdomain] at h
    obtain ⟨ownParty, hparty, h⟩ := Except.exists_of_bind_eq_ok h
    obtain ⟨ownEnvironment, henvironment, h⟩ := Except.exists_of_bind_eq_ok h
    obtain ⟨ownDomain, hown, h⟩ := Except.exists_of_bind_eq_ok h
    cases h
    have hparty := map_of_readOptional (SectionPath.blame_eq_ok.mp hparty)
    have henvironment := map_of_readOptional (SectionPath.blame_eq_ok.mp henvironment)
    have hown := map_of_readOptional (SectionPath.blame_eq_ok.mp hown)
    obtain ⟨d, rfl, hd⟩ := Option.map_eq_some_iff.mp hown.symm
    have hparse := parse_wholeName hd.symm hparty henvironment
    have choose_none {α : Type} (conflict : String) (a : Option α) :
        choose path conflict a none = .ok a := by cases a <;> rfl
    rw [PartySection.names]
    simp only [inOneText, readOptional, hparse, SectionPath.blame, choose_none, bind, Except.bind]
    rfl
  address := rfl
  allow := rfl
  disallow := rfl
  settings := rfl
  parties _ _ _ _ := .refl _

namespace StandsFor

variable {t s : PartySection}

theorem policy (h : t.StandsFor s) : t.policy = s.policy := by
  funext path above
  rw [PartySection.policy, PartySection.policy, h.allow, h.disallow]

theorem declaresDomain (h : t.StandsFor s) : t.declaresDomain = s.declaresDomain := by
  funext name
  rw [PartySection.declaresDomain, PartySection.declaresDomain, h.address]

/-- It resolves to the same parties. -/
theorem resolveSection (h : t.StandsFor s) (index : NameIndex) (scope : Scope)
    (path : SectionPath) : Except.Yields (PartyGraph.resolveSection index scope path s)
      (PartyGraph.resolveSection index scope path t) := by
  rintro ⟨index', ps⟩ hs
  refine Resolves.eq_ok ?_
  cases resolves_of_eq_ok hs with
  | group hnames hpolicy hparty hparties =>
    exact .group (h.names _ _ _ _ _ hnames) (h.policy ▸ hpolicy) hparty
      (h.parties _ _ _ _ _ hparties)
  | tenant hnames hpolicy hparty henter hdomain hparties =>
    rw [← h.settings]
    exact .tenant (h.names _ _ _ _ _ hnames) (h.policy ▸ hpolicy) hparty henter
      (h.declaresDomain ▸ hdomain) (h.parties _ _ _ _ _ hparties)
  | remote hnames hpolicy hparty henter hdomain =>
    rw [← h.settings, ← h.address]
    exact .remote (h.names _ _ _ _ _ hnames) (h.policy ▸ hpolicy) hparty henter
      (h.declaresDomain ▸ hdomain)

/-- It is the same root. -/
theorem resolveRootParty (h : t.StandsFor s) :
    Except.Yields (PartyGraph.resolveRootParty s) (PartyGraph.resolveRootParty t) := by
  unfold PartyGraph.resolveRootParty
  rw [h.policy, h.settings]
  exact (h.names _ _ _ _).bind fun _ => .refl _

/-- As the tree of an identity it resolves to the same. -/
theorem resolveRoot (h : t.StandsFor s) :
    Except.Yields (PartyGraph.resolveRoot s) (PartyGraph.resolveRoot t) := by
  intro r hr
  obtain ⟨hroot, index, hparties⟩ := resolveRoot_eq_ok.mp hr
  exact resolveRoot_eq_ok.mpr ⟨h.resolveRootParty _ hroot, index, h.parties _ _ _ _ _ hparties⟩

/-- As an addition it resolves to the same. -/
theorem resolveIncrement (h : t.StandsFor s) (owner : PartyConfiguration) :
    Except.Yields (PartyGraph.resolveIncrement owner s) (PartyGraph.resolveIncrement owner t) := by
  intro ps hps
  obtain ⟨index, hs⟩ := resolveIncrement_eq_ok.mp hps
  exact resolveIncrement_eq_ok.mpr ⟨index, h.resolveSection _ _ _ _ hs⟩

end StandsFor

/-! ### The tree around it -/

/-- Consecutive children resolve to the same when one of them is changed into a section that stands
for it. -/
theorem yields_resolveSections_modify {f : PartySection → PartySection} {ss : List PartySection}
    {k : Nat} {child : PartySection} (hchild : ss[k]? = some child)
    (hf : (f child).StandsFor child) (index : NameIndex) (scope : Scope) (path : SectionPath)
    (i : Nat) : Except.Yields (resolveSections index scope path i ss)
      (resolveSections index scope path i (ss.modify k f)) := by
  induction ss generalizing k index i with
  | nil => cases hchild
  | cons s rest ih =>
    rintro ⟨index', ps⟩ h
    obtain ⟨index₁, first, others, hs, hrest, rfl⟩ := resolveSections_cons_eq_ok.mp h
    cases k with
    | zero =>
      cases hchild
      exact resolveSections_cons_eq_ok.mpr
        ⟨index₁, first, others, hf.resolveSection _ _ _ _ hs, hrest, rfl⟩
    | succ k =>
      exact resolveSections_cons_eq_ok.mpr
        ⟨index₁, first, others, hs, ih hchild index₁ (i + 1) _ hrest, rfl⟩

/-- A tree stands for the one of which it differs in one place, if the section there does. -/
theorem standsFor_modifyAt {f : PartySection → PartySection} {s sec : PartySection}
    {place : List Nat} (hat : s.at? place = some sec) (hf : (f sec).StandsFor sec) :
    (s.modifyAt f place).StandsFor s := by
  induction place generalizing s with
  | nil =>
    cases hat
    exact hf
  | cons i is ih =>
    obtain ⟨child, hchild, hat⟩ := Option.bind_eq_some_iff.mp hat
    exact
      { names := fun _ _ _ _ => .refl _
        address := rfl
        allow := rfl
        disallow := rfl
        settings := rfl
        parties := yields_resolveSections_modify hchild (ih hat) }

end PartySection

/-- **Names may be given in one text.** If a tree resolves, and a section somewhere in it gives its
domain by itself and perhaps a party and an environment, with their marks or without, then the tree
resolves to the same when that section gives all of them in one text instead; and so does an
addition. -/
theorem resolve_inOneText {s sec : PartySection} {place : List Nat} {domain : String}
    (hat : s.at? place = some sec) (hfull : sec.fullName = none)
    (hdomain : sec.domainName = some domain) :
    (∀ r, resolveRoot s = .ok r →
      resolveRoot (s.modifyAt (·.inOneText domain) place) = .ok r) ∧
    ∀ owner ps, resolveIncrement owner s = .ok ps →
      resolveIncrement owner (s.modifyAt (·.inOneText domain) place) = .ok ps := by
  have hstands : (s.modifyAt (·.inOneText domain) place).StandsFor s :=
    PartySection.standsFor_modifyAt hat (PartySection.standsFor_inOneText hfull hdomain)
  exact ⟨hstands.resolveRoot, fun owner => hstands.resolveIncrement owner⟩

/-- A tenant domain that is given by single names, with a remote party in it that takes its domain
and its environment from there. -/
def singleNames : PartySection := { PartySection.blank with parties := [
  { PartySection.blank with
    domainName := some "Acme/Sales"
    partyName := some "Sales"
    environmentName := some "#Prod"
    parties := [{ PartySection.blank with partyName := some "$Billing" }] }] }

theorem resolve_inOneText_of_singleNames :
    (∃ r, resolveRoot singleNames = .ok r ∧ r.parties.tenants.length = 1 ∧
      resolveRoot (singleNames.modifyAt (·.inOneText "Acme/Sales") [0]) = .ok r) ∧
    (∃ ps, resolveIncrement plainRoot singleNames = .ok ps ∧ ps.tenants.length = 1 ∧
      resolveIncrement plainRoot (singleNames.modifyAt (·.inOneText "Acme/Sales") [0]) = .ok ps) ∧
    wholeName "Acme/Sales" (some "Sales") (some "#Prod") = "Acme/Sales/$Sales/#Prod" := by
  have hroot : (resolveRoot singleNames).toOption.map (·.parties.tenants.length) = some 1 := by
    decide +kernel
  have hincrement :
      (resolveIncrement plainRoot singleNames).toOption.map (·.tenants.length) = some 1 := by
    decide +kernel
  have hsame := resolve_inOneText (show singleNames.at? [0] = some _ from rfl) rfl rfl
  refine ⟨?_, ?_, by decide +kernel⟩
  · cases h : resolveRoot singleNames with
    | error e =>
      rw [h] at hroot
      cases hroot
    | ok r =>
      rw [h] at hroot
      exact ⟨r, rfl, Option.some.inj hroot, hsame.1 r h⟩
  · cases h : resolveIncrement plainRoot singleNames with
    | error e =>
      rw [h] at hincrement
      cases hincrement
    | ok ps =>
      rw [h] at hincrement
      exact ⟨ps, rfl, Option.some.inj hincrement, hsame.2 plainRoot ps h⟩

/-- The way back is not open to all. -/
example : let s := { PartySection.blank with domainName := some " Acme" }
    (resolveRoot s).toOption.isSome = false ∧
      (resolveRoot (s.inOneText " Acme")).toOption.isSome = true := by
  decide +kernel

end PartyGraph
