import PartyGraph.Proofs.Section.Agreement

/-!
# A resolved tree mirrors its sections

Resolution walks a tree with two lists to fill: remote parties go to the tenant domain around them,
and tenant domains to the level of the root, behind those in them. Sections without a party name
leave no trace but their place in the paths of others, and sections below a remote party are not
read. Nothing of the tree is lost but these, and nothing is made up: the places of the parties are
those of the sections that name a party and are not below a remote one, each once
(`Parties.Mirrors`). And each party is listed where it belongs (`Parties.Placed`).

The first is said of any set of sections with their places, since the induction over a tree takes
it apart into a section and those in it, and consecutive sections into the first and the rest. The
second is said of parties alone. Sections that are not within each other branch off at some section
around both, one before the other (`SectionPath.Before`); that is all that matters between the
parties of one and those of the other.

## Main definitions

* `SectionPath.Encloses`, `SectionPath.Before`: places within one another, and one after another.
* `PartySection.DefinesParty`: a section names a party.
* `PartyConfiguration.Carries`: a party has the data of a section and the kind that they call for.
* `Parties.Mirrors`: parties and sections correspond.
* `Parties.Placed`: the lists in which parties stand, and their order.

## Main results

* `Parties.Mirrors.append`, `Parties.Placed.append`: consecutive sections.
* `Parties.Mirrors.tenant`, `Parties.Placed.tenant`: a tenant domain around the sections in its own.
* `mirrors_section`: the induction over sections.
* `resolvesWhole`: whole trees.
-/

namespace PartyGraph

/-! ### Places -/

namespace SectionPath

variable {base p q : SectionPath} {i j : Nat}

/-- Whether a place lies strictly below another. -/
def Encloses (base p : SectionPath) : Prop := base.covers p = true ∧ p ≠ base

/-- Whether a place comes before another in the document, neither being within the other: at some
section around both it lies in an earlier child. -/
def Before (p q : SectionPath) : Prop :=
  ∃ (base : SectionPath) (i j : Nat),
    i < j ∧ (base.child i).covers p = true ∧ (base.child j).covers q = true

theorem encloses_of_covers_child (h : (base.child i).covers p = true) : base.Encloses p := by
  refine ⟨covers_of_covers_child h, ?_⟩
  rintro rfl
  rw [not_covers_child (covers_refl p)] at h
  cases h

theorem not_encloses_self (p : SectionPath) : ¬ p.Encloses p := fun h => h.2 rfl

theorem Encloses.not_encloses (h : base.Encloses p) : ¬ p.Encloses base := fun h' =>
  h.2 (covers_antisymm h'.1 h.1)

namespace Before

theorem not_covers (h : p.Before q) : p.covers q = false := by
  obtain ⟨base, i, j, hlt, hp, hq⟩ := h
  refine Bool.eq_false_iff.mpr fun hc => ?_
  exact absurd (eq_of_covers_child (covers_trans hp hc) hq) (Nat.ne_of_lt hlt)

theorem not_covers_symm (h : p.Before q) : q.covers p = false := by
  obtain ⟨base, i, j, hlt, hp, hq⟩ := h
  refine Bool.eq_false_iff.mpr fun hc => ?_
  exact absurd (eq_of_covers_child hp (covers_trans hq hc)) (Nat.ne_of_lt hlt)

theorem not_encloses (h : p.Before q) : ¬ p.Encloses q := fun he =>
  Bool.false_ne_true (h.not_covers.symm.trans he.1)

theorem not_encloses_symm (h : p.Before q) : ¬ q.Encloses p := fun he =>
  Bool.false_ne_true (h.not_covers_symm.symm.trans he.1)

theorem ne (h : p.Before q) : p ≠ q := by
  rintro rfl
  exact Bool.false_ne_true (h.not_covers.symm.trans (covers_refl p))

end Before

end SectionPath

/-- Whether a section stands at a place of the tree that another has at `path`. -/
def PartySection.StandsAt (s : PartySection) (path p : SectionPath) (sec : PartySection) : Prop :=
  ∃ is, p = ⟨path.origin, path.indices ++ is⟩ ∧ s.at? is = some sec

/-- The same of consecutive children of the section at `path`, of which the first has number
`i`. -/
def StandsAmong (ss : List PartySection) (path : SectionPath) (i : Nat) (p : SectionPath)
    (sec : PartySection) : Prop :=
  ∃ (j : Nat) (s : PartySection), ss[j]? = some s ∧ s.StandsAt (path.child (i + j)) p sec

section Standing

variable {s sec : PartySection} {rest : List PartySection} {path p : SectionPath} {i : Nat}

/-- A section of a tree is that of the tree itself or stands in one of its children. -/
theorem standsAt_iff :
    s.StandsAt path p sec ↔ (p = path ∧ sec = s) ∨ StandsAmong s.parties path 0 p sec := by
  constructor
  · rintro ⟨_ | ⟨j, is⟩, rfl, hat⟩
    · exact .inl ⟨by rw [List.append_nil], (Option.some.inj hat).symm⟩
    · obtain ⟨child, hchild, hat⟩ := Option.bind_eq_some_iff.mp hat
      exact .inr ⟨j, child, hchild, is, by simp [SectionPath.child], hat⟩
  · rintro (⟨rfl, rfl⟩ | ⟨j, child, hchild, is, rfl, hat⟩)
    · exact ⟨[], by rw [List.append_nil], rfl⟩
    · exact ⟨j :: is, by simp [SectionPath.child],
        Option.bind_eq_some_iff.mpr ⟨child, hchild, hat⟩⟩

theorem standsAmong_cons :
    StandsAmong (s :: rest) path i p sec ↔
      s.StandsAt (path.child i) p sec ∨ StandsAmong rest path (i + 1) p sec := by
  constructor
  · rintro ⟨_ | j, child, hchild, hat⟩
    · obtain rfl := Option.some.inj hchild
      exact .inl hat
    · refine .inr ⟨j, child, hchild, ?_⟩
      rw [Nat.add_right_comm]
      exact hat
  · rintro (hat | ⟨j, child, hchild, hat⟩)
    · exact ⟨0, s, rfl, hat⟩
    · exact ⟨j + 1, child, hchild, by rwa [Nat.add_right_comm] at hat⟩

theorem PartySection.StandsAt.covers (h : s.StandsAt path p sec) : path.covers p = true := by
  obtain ⟨is, rfl, -⟩ := h
  exact SectionPath.covers_eq_true.mpr ⟨is, rfl⟩

theorem StandsAmong.exists_covers (h : StandsAmong rest path i p sec) :
    ∃ k, i ≤ k ∧ (path.child k).covers p = true := by
  obtain ⟨j, child, -, hat⟩ := h
  exact ⟨i + j, Nat.le_add_right i j, hat.covers⟩

theorem StandsAmong.encloses (h : StandsAmong rest path i p sec) : path.Encloses p := by
  obtain ⟨k, -, hk⟩ := h.exists_covers
  exact SectionPath.encloses_of_covers_child hk

end Standing

/-! ### Correspondence -/

/-- Whether a section names a party, in its own field or in its full name. -/
def PartySection.DefinesParty (s : PartySection) : Prop :=
  s.partyName.isSome ∨ ∃ text parts, s.fullName = some text ∧ NameParts.parse text = .ok parts ∧
    parts.party.isSome

/-- Whether the section of a party with a name is that of a tenant domain: it has no address, and
the party has the name of its innermost domain, in ASCII letters of any case. -/
def PartySection.MakesTenant (s : PartySection) (name : FullName) : Prop :=
  s.address = none ∧ name.party.lower = name.domain.last.lower

/-- Whether a party has the address and the settings of a section, a name as the section reads, and
the kind that these call for. -/
structure PartyConfiguration.Carries (c : PartyConfiguration) (sec : PartySection) : Prop where
  address : c.address = sec.address
  settings : c.settings = sec.settings
  named : ∃ domain environment names party,
    sec.names c.path domain none environment = .ok names ∧ names.party = some party ∧
      c.fullName = ⟨names.domain, party, names.environment⟩
  tenantDomain : c.kind = .tenantDomain ↔ sec.MakesTenant c.fullName
  remote : c.kind = .remote ↔ ¬ sec.MakesTenant c.fullName

/-- Whether parties are those of some sections. -/
structure Parties.Mirrors (ps : Parties) (stands : SectionPath → PartySection → Prop) : Prop where
  /-- No two parties are of one section. -/
  distinct : (ps.all.map (·.path)).Nodup
  /-- Every party is that of the section at its place. -/
  declared : ∀ c ∈ ps.all, ∃ sec, stands c.path sec ∧ sec.DefinesParty ∧ c.Carries sec
  /-- No party is of a section below that of a remote party. -/
  uncovered : ∀ c ∈ ps.all, ∀ d ∈ ps.all, d.kind = .remote → ¬ d.path.Encloses c.path
  /-- Any other section that names a party has one. -/
  complete : ∀ p sec, stands p sec → sec.DefinesParty →
    (∀ d ∈ ps.all, d.kind = .remote → ¬ d.path.Encloses p) → ∃ c ∈ ps.all, c.path = p

/-- Whether parties are listed where they belong. -/
structure Parties.Placed (ps : Parties) : Prop where
  /-- The remote parties of the owner are in no tenant domain. -/
  outermost : ∀ c ∈ ps.remotes, ∀ t ∈ ps.tenants, ¬ t.party.path.Encloses c.path
  /-- The remote parties of a tenant domain are in it, and in no other within it. -/
  nearest : ∀ t ∈ ps.tenants, ∀ c ∈ t.remotes, t.party.path.Encloses c.path ∧
    ∀ u ∈ ps.tenants, u.party.path.Encloses c.path → u.party.path.covers t.party.path = true
  /-- A tenant domain comes behind those in it. -/
  lifted : ps.tenants.Pairwise fun t u => ¬ t.party.path.Encloses u.party.path
  /-- Remote parties keep the order of the document. -/
  inOrder : ps.remotes.Pairwise fun c d => c.path.Before d.path
  tenantsInOrder : ∀ t ∈ ps.tenants, t.remotes.Pairwise fun c d => c.path.Before d.path

namespace Parties

section Listed

variable {ps : Parties} {t : TenantConfiguration} {c : PartyConfiguration}

theorem mem_all_of_remotes (h : c ∈ ps.remotes) : c ∈ ps.all := List.mem_append_left _ h

theorem mem_all_of_tenants (h : t ∈ ps.tenants) : t.party ∈ ps.all :=
  List.mem_append_right _ (List.mem_flatMap.mpr ⟨t, h, List.mem_cons_self⟩)

theorem mem_all_of_tenant_remotes (ht : t ∈ ps.tenants) (hc : c ∈ t.remotes) : c ∈ ps.all :=
  List.mem_append_right _ (List.mem_flatMap.mpr ⟨t, ht, List.mem_cons_of_mem _ hc⟩)

end Listed

variable {ps qs : Parties} {A B : SectionPath → PartySection → Prop} {c : PartyConfiguration}
  {s : PartySection}

namespace Mirrors

theorem congr (h : ps.Mirrors A) (hiff : ∀ p sec, B p sec ↔ A p sec) : ps.Mirrors B := by
  obtain rfl : B = A := funext fun p => funext fun sec => propext (hiff p sec)
  exact h

/-- Parties come one before another when the sections do. -/
theorem before (ha : ps.Mirrors A) (hb : qs.Mirrors B)
    (hbefore : ∀ p sec q sec', A p sec → B q sec' → p.Before q) :
    ∀ c ∈ ps.all, ∀ d ∈ qs.all, c.path.Before d.path := by
  intro c hc d hd
  obtain ⟨sec, hsec, -⟩ := ha.declared c hc
  obtain ⟨sec', hsec', -⟩ := hb.declared d hd
  exact hbefore _ _ _ _ hsec hsec'

/-- Parties are within a place when the sections are. -/
theorem inside (h : ps.Mirrors B) {base : SectionPath}
    (hbelow : ∀ p sec, B p sec → base.Encloses p) : ∀ c ∈ ps.all, base.Encloses c.path := by
  intro c hc
  obtain ⟨sec, hsec, -⟩ := h.declared c hc
  exact hbelow _ _ hsec

theorem none : Parties.none.Mirrors fun _ _ => False where
  distinct := List.nodup_nil
  declared _ hc := absurd hc List.not_mem_nil
  uncovered _ hc := absurd hc List.not_mem_nil
  complete _ _ hstands := hstands.elim

/-- The parties of sections, followed by those of later ones. -/
theorem append (ha : ps.Mirrors A) (hb : qs.Mirrors B)
    (hbefore : ∀ c ∈ ps.all, ∀ d ∈ qs.all, c.path.Before d.path) :
    (ps ++ qs).Mirrors fun p sec => A p sec ∨ B p sec := by
  have hall : ∀ c, c ∈ (ps ++ qs).all ↔ c ∈ ps.all ∨ c ∈ qs.all := fun c =>
    (all_append ps qs).mem_iff.trans List.mem_append
  constructor
  case distinct =>
    refine ((all_append ps qs).map _).nodup_iff.mpr ?_
    rw [List.map_append]
    refine ha.distinct.append hb.distinct (List.disjoint_left.mpr fun p hp hq => ?_)
    obtain ⟨c, hc, rfl⟩ := List.mem_map.mp hp
    obtain ⟨d, hd, hpath⟩ := List.mem_map.mp hq
    exact (hbefore c hc d hd).ne hpath.symm
  case declared =>
    intro c hc
    rcases (hall c).mp hc with hc | hc
    · obtain ⟨sec, hsec, hcarries⟩ := ha.declared c hc
      exact ⟨sec, .inl hsec, hcarries⟩
    · obtain ⟨sec, hsec, hcarries⟩ := hb.declared c hc
      exact ⟨sec, .inr hsec, hcarries⟩
  case uncovered =>
    intro c hc d hd hkind
    rcases (hall c).mp hc with hc | hc <;> rcases (hall d).mp hd with hd | hd
    · exact ha.uncovered c hc d hd hkind
    · exact (hbefore c hc d hd).not_encloses_symm
    · exact (hbefore d hd c hc).not_encloses
    · exact hb.uncovered c hc d hd hkind
  case complete =>
    rintro p sec (hp | hp) hsec hopen
    · obtain ⟨c, hc, rfl⟩ := ha.complete p sec hp hsec fun d hd => hopen d ((hall d).mpr (.inl hd))
      exact ⟨c, (hall c).mpr (.inl hc), rfl⟩
    · obtain ⟨c, hc, rfl⟩ := hb.complete p sec hp hsec fun d hd => hopen d ((hall d).mpr (.inr hd))
      exact ⟨c, (hall c).mpr (.inr hc), rfl⟩

/-- A section without a party name adds nothing to the parties of those in it. -/
theorem group (h : ps.Mirrors B) (hs : ¬ s.DefinesParty) (path : SectionPath) :
    ps.Mirrors fun p sec => (p = path ∧ sec = s) ∨ B p sec where
  distinct := h.distinct
  declared c hc := by
    obtain ⟨sec, hsec, hcarries⟩ := h.declared c hc
    exact ⟨sec, .inr hsec, hcarries⟩
  uncovered := h.uncovered
  complete := by
    rintro p sec (⟨rfl, rfl⟩ | hp) hsec
    · exact absurd hsec hs
    · exact h.complete p sec hp hsec

/-- A remote party stands for its section, and no section below it is read. -/
theorem remote (hs : s.DefinesParty) (hc : c.Carries s) (hkind : c.kind = .remote)
    (hbelow : ∀ p sec, B p sec → c.path.Encloses p) :
    (Parties.remote c).Mirrors fun p sec => (p = c.path ∧ sec = s) ∨ B p sec where
  distinct := List.nodup_singleton _
  declared d hd := by
    obtain rfl := List.mem_singleton.mp hd
    exact ⟨s, .inl ⟨rfl, rfl⟩, hs, hc⟩
  uncovered d hd e he _ := by
    obtain rfl := List.mem_singleton.mp hd
    obtain rfl := List.mem_singleton.mp he
    exact SectionPath.not_encloses_self _
  complete := by
    rintro p sec (⟨rfl, rfl⟩ | hp) - hopen
    · exact ⟨c, List.mem_singleton_self c, rfl⟩
    · exact absurd (hbelow p sec hp) (hopen c (List.mem_singleton_self c) hkind)

/-- A tenant domain stands for its section, around the parties of those in it. -/
theorem tenant (h : ps.Mirrors B) (hs : s.DefinesParty) (hc : c.Carries s)
    (hkind : c.kind = .tenantDomain) (hinside : ∀ d ∈ ps.all, c.path.Encloses d.path) :
    (Parties.tenant c ps).Mirrors fun p sec => (p = c.path ∧ sec = s) ∨ B p sec := by
  have hall : ∀ d, d ∈ (Parties.tenant c ps).all ↔ d = c ∨ d ∈ ps.all := fun d =>
    (all_tenant c ps).mem_iff.trans List.mem_cons
  constructor
  case distinct =>
    refine ((all_tenant c ps).map _).nodup_iff.mpr (List.nodup_cons.mpr ⟨fun hp => ?_, h.distinct⟩)
    obtain ⟨d, hd, hpath⟩ := List.mem_map.mp hp
    exact (hinside d hd).2 hpath
  case declared =>
    intro d hd
    rcases (hall d).mp hd with rfl | hd
    · exact ⟨s, .inl ⟨rfl, rfl⟩, hs, hc⟩
    · obtain ⟨sec, hsec, hcarries⟩ := h.declared d hd
      exact ⟨sec, .inr hsec, hcarries⟩
  case uncovered =>
    intro d hd e he hremote
    rcases (hall e).mp he with rfl | hein
    · rw [hkind] at hremote
      cases hremote
    · rcases (hall d).mp hd with rfl | hdin
      · exact (hinside e hein).not_encloses
      · exact h.uncovered d hdin e hein hremote
  case complete =>
    rintro p sec (⟨rfl, rfl⟩ | hp) hsec hopen
    · exact ⟨c, (hall c).mpr (.inl rfl), rfl⟩
    · obtain ⟨d, hd, rfl⟩ := h.complete p sec hp hsec fun e he => hopen e ((hall e).mpr (.inr he))
      exact ⟨d, (hall d).mpr (.inr hd), rfl⟩

end Mirrors

namespace Placed

/-- Without tenant domains all that matters is the order. -/
theorem ofRemotes {cs : List PartyConfiguration}
    (h : cs.Pairwise fun c d => c.path.Before d.path) : (⟨cs, []⟩ : Parties).Placed where
  outermost _ _ _ ht := absurd ht List.not_mem_nil
  nearest _ ht := absurd ht List.not_mem_nil
  lifted := .nil
  inOrder := h
  tenantsInOrder _ ht := absurd ht List.not_mem_nil

theorem append (ha : ps.Placed) (hb : qs.Placed)
    (hbefore : ∀ c ∈ ps.all, ∀ d ∈ qs.all, c.path.Before d.path) : (ps ++ qs).Placed := by
  constructor
  case outermost =>
    intro c hc t ht
    rcases List.mem_append.mp hc with hc | hc <;> rcases List.mem_append.mp ht with ht | ht
    · exact ha.outermost c hc t ht
    · exact (hbefore c (mem_all_of_remotes hc) _ (mem_all_of_tenants ht)).not_encloses_symm
    · exact (hbefore _ (mem_all_of_tenants ht) c (mem_all_of_remotes hc)).not_encloses
    · exact hb.outermost c hc t ht
  case nearest =>
    intro t ht c hc
    rcases List.mem_append.mp ht with ht | ht
    · obtain ⟨hin, hnearest⟩ := ha.nearest t ht c hc
      refine ⟨hin, fun u hu hencloses => ?_⟩
      rcases List.mem_append.mp hu with hu | hu
      · exact hnearest u hu hencloses
      · exact absurd hencloses (hbefore c (mem_all_of_tenant_remotes ht hc) _
          (mem_all_of_tenants hu)).not_encloses_symm
    · obtain ⟨hin, hnearest⟩ := hb.nearest t ht c hc
      refine ⟨hin, fun u hu hencloses => ?_⟩
      rcases List.mem_append.mp hu with hu | hu
      · exact absurd hencloses (hbefore _ (mem_all_of_tenants hu) c
          (mem_all_of_tenant_remotes ht hc)).not_encloses
      · exact hnearest u hu hencloses
  case lifted =>
    refine List.pairwise_append.mpr ⟨ha.lifted, hb.lifted, fun t ht u hu => ?_⟩
    exact (hbefore _ (mem_all_of_tenants ht) _ (mem_all_of_tenants hu)).not_encloses
  case inOrder =>
    refine List.pairwise_append.mpr ⟨ha.inOrder, hb.inOrder, fun c hc d hd => ?_⟩
    exact hbefore c (mem_all_of_remotes hc) d (mem_all_of_remotes hd)
  case tenantsInOrder =>
    intro t ht
    exact (List.mem_append.mp ht).elim (ha.tenantsInOrder t) (hb.tenantsInOrder t)

/-- A tenant domain takes the remote parties of the sections in its own, and comes behind the
tenant domains in them. -/
theorem tenant (h : ps.Placed) (hinside : ∀ d ∈ ps.all, c.path.Encloses d.path) :
    (Parties.tenant c ps).Placed := by
  constructor
  case outermost => exact fun d hd => absurd hd List.not_mem_nil
  case nearest =>
    intro t ht d hd
    rcases List.mem_append.mp ht with ht | ht
    · obtain ⟨hin, hnearest⟩ := h.nearest t ht d hd
      refine ⟨hin, fun u hu hencloses => ?_⟩
      rcases List.mem_append.mp hu with hu | hu
      · exact hnearest u hu hencloses
      · obtain rfl := List.mem_singleton.mp hu
        exact (hinside _ (mem_all_of_tenants ht)).1
    · obtain rfl := List.mem_singleton.mp ht
      refine ⟨hinside d (mem_all_of_remotes hd), fun u hu hencloses => ?_⟩
      rcases List.mem_append.mp hu with hu | hu
      · exact absurd hencloses (h.outermost d hd u hu)
      · obtain rfl := List.mem_singleton.mp hu
        exact SectionPath.covers_refl _
  case lifted =>
    refine List.pairwise_append.mpr ⟨h.lifted, List.pairwise_singleton _ _, fun t ht u hu => ?_⟩
    obtain rfl := List.mem_singleton.mp hu
    exact (hinside _ (mem_all_of_tenants ht)).not_encloses
  case inOrder => exact .nil
  case tenantsInOrder =>
    intro t ht
    rcases List.mem_append.mp ht with ht | ht
    · exact h.tenantsInOrder t ht
    · obtain rfl := List.mem_singleton.mp ht
      exact h.inOrder

end Placed

end Parties

/-! ### Names and kinds -/

theorem SectionPath.blame_eq_ok {α : Type} {path : SectionPath} {x : Except NameError α} {a : α} :
    path.blame x = .ok a ↔ x = .ok a := by
  cases x <;> simp [blame]

theorem map_of_readOptional {α : Type} {read : String → Except NameError α} {text : Option String}
    {a : Option α} (h : readOptional read text = .ok a) : text.map read = a.map .ok := by
  cases text with
  | none =>
    cases h
    rfl
  | some text =>
    rw [readOptional] at h
    split at h
    · next a' hread =>
      cases h
      exact congrArg some hread
    · cases h

theorem eq_or_of_choose {α : Type} {path : SectionPath} {conflict : String} {a b c : Option α}
    (h : choose path conflict a b = .ok c) : c = a.or b := by
  cases a <;> cases b <;> cases h <;> rfl

/-- The names of a section have a party exactly if the section names one. -/
theorem PartySection.isSome_party_iff {s : PartySection} {path : SectionPath} {domain : Domain}
    {environment : Segment} {names : SectionNames}
    (h : s.names path domain none environment = .ok names) :
    names.party.isSome ↔ s.DefinesParty := by
  rw [PartySection.names] at h
  obtain ⟨ownParty, hown, h⟩ := Except.exists_of_bind_eq_ok h
  obtain ⟨ownEnvironment, -, h⟩ := Except.exists_of_bind_eq_ok h
  have hown : s.partyName.isSome = ownParty.isSome := by
    simpa using congrArg Option.isSome (map_of_readOptional (SectionPath.blame_eq_ok.mp hown))
  rw [DefinesParty, hown]
  split at h
  · next hfull =>
    obtain ⟨ownDomain, -, h⟩ := Except.exists_of_bind_eq_ok h
    cases h
    simp [hfull]
  · next text hfull =>
    obtain ⟨parts, hparts, h⟩ := Except.exists_of_bind_eq_ok h
    have hparts := SectionPath.blame_eq_ok.mp hparts
    dsimp only at h
    split at h
    · cases h
    · obtain ⟨chosen, hchosen, h⟩ := Except.exists_of_bind_eq_ok h
      obtain ⟨environment, -, h⟩ := Except.exists_of_bind_eq_ok h
      cases h
      simp [hfull, hparts, eq_or_of_choose hchosen, or_comm]

/-- Whether a section declares a domain is whether it makes a tenant domain. -/
theorem PartySection.declaresDomain_iff {s : PartySection} {name : FullName} :
    s.declaresDomain name = true ↔ s.MakesTenant name := by
  rw [declaresDomain, MakesTenant, Bool.and_eq_true, Option.isNone_iff_eq_none,
    FullName.namesItsDomain, Segment.sameAs, beq_iff_eq]

/-! ### The induction over sections -/

mutual

/-- **The parties of a section mirror it and the sections in it, each in its place.** -/
theorem mirrors_section (index : NameIndex) (scope : Scope) (path : SectionPath) :
    (s : PartySection) → {index' : NameIndex} → {ps : Parties} →
    resolveSection index scope path s = .ok (index', ps) →
    ps.Mirrors (s.StandsAt path) ∧ ps.Placed
  | ⟨fullName, domainName, partyName, environmentName, address, allow, disallow, settings,
      parties⟩, index', ps, h => by
    have hres := resolves_of_eq_ok h
    clear h
    cases hres with
    | group hnames hpolicy hparty h =>
      obtain ⟨hmirrors, hplaced⟩ := mirrors_sections index _ path 0 parties h
      refine ⟨(hmirrors.group (fun hs => ?_) path).congr fun p sec => standsAt_iff, hplaced⟩
      rw [← PartySection.isSome_party_iff hnames, hparty] at hs
      cases hs
    | @tenant names policy party index₁ _ nested hnames hpolicy hparty henter hdomain h =>
      obtain ⟨hmirrors, hplaced⟩ := mirrors_sections index₁ _ path 0 parties h
      have hinside := hmirrors.inside fun p sec hp => hp.encloses
      have htenant := PartySection.declaresDomain_iff.mp hdomain
      have hdefines := (PartySection.isSome_party_iff hnames).mp (by rw [hparty]; rfl)
      refine ⟨(hmirrors.tenant hdefines ?_ rfl hinside).congr fun p sec => standsAt_iff,
        hplaced.tenant hinside⟩
      exact {
        address := htenant.1.symm
        settings := rfl
        named := ⟨_, _, names, party, hnames, hparty, rfl⟩
        tenantDomain := ⟨fun _ => htenant, fun _ => rfl⟩
        remote := ⟨nofun, fun hno => absurd htenant hno⟩ }
    | @remote names policy party _ hnames hpolicy hparty henter hdomain =>
      have hremote := PartySection.declaresDomain_iff.not.mp (Bool.eq_false_iff.mp hdomain)
      have hdefines := (PartySection.isSome_party_iff hnames).mp (by rw [hparty]; rfl)
      refine ⟨(Parties.Mirrors.remote hdefines ?_ rfl fun p sec hp => hp.encloses).congr
        fun p sec => standsAt_iff, .ofRemotes (List.pairwise_singleton _ _)⟩
      exact {
        address := rfl
        settings := rfl
        named := ⟨_, _, names, party, hnames, hparty, rfl⟩
        tenantDomain := ⟨nofun, fun hyes => absurd hyes hremote⟩
        remote := ⟨fun _ => hremote, fun _ => rfl⟩ }

/-- The same of consecutive children. -/
theorem mirrors_sections (index : NameIndex) (scope : Scope) (path : SectionPath) (i : Nat) :
    (ss : List PartySection) → {index' : NameIndex} → {ps : Parties} →
    resolveSections index scope path i ss = .ok (index', ps) →
    ps.Mirrors (StandsAmong ss path i) ∧ ps.Placed
  | [], index', ps, h => by
    rw [resolveSections] at h
    cases h
    refine ⟨Parties.Mirrors.none.congr fun p sec => ⟨?_, False.elim⟩, .ofRemotes .nil⟩
    rintro ⟨_, _, hj, -⟩
    cases hj
  | s :: rest, index', ps, h => by
    obtain ⟨index₁, first, others, hs, hrest, rfl⟩ := resolveSections_cons_eq_ok.mp h
    obtain ⟨hfirst, hfirstPlaced⟩ := mirrors_section index scope (path.child i) s hs
    obtain ⟨hothers, hothersPlaced⟩ := mirrors_sections index₁ scope path (i + 1) rest hrest
    have hbefore := hfirst.before hothers fun p sec q sec' hp hq => by
      obtain ⟨k, hk, hcovers⟩ := hq.exists_covers
      exact ⟨path, i, k, hk, hp.covers, hcovers⟩
    exact ⟨(hfirst.append hothers hbefore).congr fun p sec => standsAmong_cons,
      hfirstPlaced.append hothersPlaced hbefore⟩

end

/-! ### Whole trees -/

/-- Whether a section stands at a place of a whole tree, strictly below its root. -/
def PartySection.HasBelow (s : PartySection) (p : SectionPath) (sec : PartySection) : Prop :=
  p.origin = .root ∧ p.indices ≠ [] ∧ s.at? p.indices = some sec

theorem PartySection.hasBelow_iff {s sec : PartySection} {p : SectionPath} :
    s.HasBelow p sec ↔ StandsAmong s.parties .root 0 p sec := by
  constructor
  · obtain ⟨origin, is⟩ := p
    rintro ⟨rfl, hne, hat⟩
    obtain ⟨hroot, -⟩ | hbelow := standsAt_iff.mp (⟨is, rfl, hat⟩ : s.StandsAt .root _ sec)
    · exact absurd (congrArg SectionPath.indices hroot) hne
    · exact hbelow
  · intro hbelow
    obtain ⟨is, rfl, hat⟩ := standsAt_iff.mpr (.inr hbelow)
    exact ⟨rfl, fun his => hbelow.encloses.2 (congrArg (SectionPath.mk .root) his), hat⟩

/-- **Resolution loses nothing and makes nothing up.** In a tree that resolves, the parties and the
sections below the root that name a party correspond by their places, but for the sections below a
remote party, which have none. Each party has the address and the settings of its section; it is a
tenant domain exactly if the section has no address and the party has the name of its innermost
domain, and a remote party otherwise. A remote party belongs to the nearest tenant domain around
it, or to the root; tenant domains stand at the level of the root, each behind those in it; the
remote parties of one owner are in the order of the document; and no two names are the same in
lower case, that of the root among them. -/
theorem resolvesWhole {s : PartySection} {r : ResolvedRoot} (h : resolveRoot s = .ok r) :
    r.parties.Mirrors s.HasBelow ∧ r.parties.Placed ∧ r.parties.Proper ∧
      (r.root.fullName.key :: r.parties.keys).Nodup := by
  obtain ⟨-, index, hs⟩ := resolveRoot_eq_ok.mp h
  obtain ⟨hmirrors, hplaced⟩ := mirrors_sections _ _ .root 0 s.parties hs
  exact ⟨hmirrors.congr fun p sec => PartySection.hasBelow_iff, hplaced, resolveRoot_proper h,
    resolveRoot_nodup h⟩

/-- A group with a remote party, beside a tenant domain that holds a remote party with a section of
its own, another tenant domain and a group, beside a party that has the name of its domain but an
address. -/
def mixedSection : PartySection := { PartySection.blank with parties := [
  { PartySection.blank with parties := [{ PartySection.blank with partyName := some "R" }] },
  { PartySection.blank with
    fullName := some "A/$a"
    parties := [
      { PartySection.blank with
        partyName := some "S"
        parties := [{ PartySection.blank with partyName := some "X" }] },
      { PartySection.blank with
        fullName := some "A/B/$B"
        parties := [{ PartySection.blank with partyName := some "T" }] },
      { PartySection.blank with parties := [{ PartySection.blank with partyName := some "U" }] }] },
  { PartySection.blank with fullName := some "C/$C", address := some "tcp://c" }] }

theorem resolvesWhole_mixed : ∃ r, resolveRoot mixedSection = .ok r ∧ r.parties.all.length = 7 ∧
    r.parties.Mirrors mixedSection.HasBelow ∧ r.parties.Placed ∧ r.parties.Proper ∧
      (r.root.fullName.key :: r.parties.keys).Nodup := by
  have hcount : (resolveRoot mixedSection).toOption.map (·.parties.all.length) = some 7 := by
    decide +kernel
  cases h : resolveRoot mixedSection with
  | error e =>
    rw [h] at hcount
    cases hcount
  | ok r =>
    rw [h] at hcount
    exact ⟨r, rfl, Option.some.inj hcount, resolvesWhole h⟩

/-- The section below the remote party `S` is not read, and `B` comes before the tenant domain that
it is in. -/
example : (resolveRoot mixedSection).toOption.map (fun r =>
      (r.parties.remotes.map (·.path.indices),
        r.parties.tenants.map fun t => (t.party.path.indices, t.remotes.map (·.path.indices))))
    = some ([[0, 0], [2]], [([1, 1], [[1, 1, 0]]), ([1], [[1, 0], [1, 2, 0]])]) := by
  decide +kernel

end PartyGraph
