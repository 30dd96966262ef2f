import Mathlib.Data.List.Nodup
import PartyGraph.Section.Resolution

/-!
# Distinct names in a resolved tree

Resolution enters the name of every party that it makes into an index and fails at a name that was
entered before. So the names of a resolved tree are pairwise distinct, and distinct from those that
the index held at the beginning. The same induction shows that each party has the kind of the place
where it stands.

The index lists a tenant domain before the parties in it and the tree lists it behind the tenant
domains in it, so the two lists of names are equal up to their order only.

## Main definitions

* `Parties.keys`: the names of a tree as they are compared.
* `Parties.Proper`: each party has the kind of its place.
* `Resolves`: the ways in which a section resolves.
* `Resolved`: what the resolution of a section does.

## Main results

* `resolves_of_eq_ok`, `resolveSections_cons_eq_ok`, `resolveRoot_eq_ok`: what resolution does.
* `resolved_section`: the induction over sections.
* `resolveIncrement_proper`, `resolveIncrement_nodup`: additions.
* `resolveRoot_proper`, `resolveRoot_nodup`: whole trees.
-/

namespace PartyGraph

/-- A computation in steps succeeds when each step does. -/
theorem Except.exists_of_bind_eq_ok {ε α β : Type} {x : Except ε α} {f : α → Except ε β} {b : β}
    (h : (x >>= f) = .ok b) : ∃ a, x = .ok a ∧ f a = .ok b := by
  cases x with
  | error e => cases h
  | ok a => exact ⟨a, rfl, h⟩

namespace Parties

/-- The names of all parties as they are compared. -/
def keys (p : Parties) : List String := p.all.map (·.fullName.key)

/-- Whether each party has the kind of the place where it stands. -/
structure Proper (p : Parties) : Prop where
  remotes : ∀ c ∈ p.remotes, c.kind = .remote
  tenants : ∀ t ∈ p.tenants, t.party.kind = .tenantDomain ∧ ∀ c ∈ t.remotes, c.kind = .remote

theorem all_append (a b : Parties) : (a ++ b).all.Perm (a.all ++ b.all) := by
  show (a.remotes ++ b.remotes ++ (a.tenants ++ b.tenants).flatMap _).Perm _
  rw [all, all, List.flatMap_append]
  simp only [List.append_assoc]
  refine List.Perm.append_left _ ?_
  simp only [← List.append_assoc]
  exact List.Perm.append_right _ List.perm_append_comm

theorem all_tenant (c : PartyConfiguration) (inner : Parties) :
    (tenant c inner).all.Perm (c :: inner.all) := by
  rw [all, all]
  simp only [tenant, List.nil_append, List.flatMap_append, List.flatMap_cons, List.flatMap_nil,
    List.append_nil]
  exact List.perm_middle.trans (List.perm_append_comm.cons c)

theorem keys_append (a b : Parties) : (a ++ b).keys.Perm (a.keys ++ b.keys) := by
  rw [keys, keys, keys, ← List.map_append]
  exact (all_append a b).map _

theorem keys_tenant (c : PartyConfiguration) (inner : Parties) :
    (tenant c inner).keys.Perm (c.fullName.key :: inner.keys) :=
  (all_tenant c inner).map _

theorem Proper.append {a b : Parties} (ha : a.Proper) (hb : b.Proper) : (a ++ b).Proper where
  remotes c hc := (List.mem_append.mp hc).elim (ha.remotes c) (hb.remotes c)
  tenants t ht := (List.mem_append.mp ht).elim (ha.tenants t) (hb.tenants t)

theorem Proper.tenant {c : PartyConfiguration} {inner : Parties} (hc : c.kind = .tenantDomain)
    (h : inner.Proper) : (Parties.tenant c inner).Proper where
  remotes := by simp [Parties.tenant]
  tenants t ht := by
    rcases List.mem_append.mp ht with ht | ht
    · exact h.tenants t ht
    · rw [List.mem_singleton.mp ht]
      exact ⟨hc, h.remotes⟩

end Parties

namespace NameIndex

/-- The names met so far. -/
def keys (index : NameIndex) : List String := index.map (·.1)

theorem enter_eq_ok {index index' : NameIndex} {name : FullName} {path : SectionPath}
    (h : index.enter name path = .ok index') :
    name.key ∉ index.keys ∧ index'.keys = name.key :: index.keys := by
  rw [enter] at h
  split at h
  · cases h
  · next hlookup =>
    cases h
    refine ⟨fun hmem => ?_, rfl⟩
    obtain ⟨e, he, hkey⟩ := List.mem_map.mp hmem
    have := List.lookup_eq_none_iff.mp hlookup e he
    simp [hkey] at this

end NameIndex

/-! ### How sections resolve -/

/-- What a section passes down to those in it. -/
def SectionNames.scope (names : SectionNames) (policy : FeaturePolicy) : Scope :=
  ⟨names.domain, names.environment, policy⟩

/-- The three ways in which a section resolves: as a group, as a tenant domain or as a remote
party. -/
inductive Resolves (index : NameIndex) (scope : Scope) (path : SectionPath) (s : PartySection) :
    NameIndex → Parties → Prop where
  | group {names policy index' ps}
    (hnames : s.names path scope.domain none scope.environment = .ok names)
    (hpolicy : s.policy path scope.policy = .ok policy) (hparty : names.party = none)
    (h : resolveSections index (names.scope policy) path 0 s.parties = .ok (index', ps)) :
    Resolves index scope path s index' ps
  | tenant {names policy party index₁ index' nested}
    (hnames : s.names path scope.domain none scope.environment = .ok names)
    (hpolicy : s.policy path scope.policy = .ok policy) (hparty : names.party = some party)
    (henter : index.enter ⟨names.domain, party, names.environment⟩ path = .ok index₁)
    (hdomain : s.declaresDomain ⟨names.domain, party, names.environment⟩ = true)
    (h : resolveSections index₁ (names.scope policy) path 0 s.parties = .ok (index', nested)) :
    Resolves index scope path s index' (Parties.tenant
      ⟨.tenantDomain, ⟨names.domain, party, names.environment⟩, none, policy, s.settings, path⟩
      nested)
  | remote {names policy party index'}
    (hnames : s.names path scope.domain none scope.environment = .ok names)
    (hpolicy : s.policy path scope.policy = .ok policy) (hparty : names.party = some party)
    (henter : index.enter ⟨names.domain, party, names.environment⟩ path = .ok index')
    (hdomain : s.declaresDomain ⟨names.domain, party, names.environment⟩ = false) :
    Resolves index scope path s index' (Parties.remote
      ⟨.remote, ⟨names.domain, party, names.environment⟩, s.address, policy, s.settings, path⟩)

theorem resolves_of_eq_ok {index index' : NameIndex} {scope : Scope} {path : SectionPath}
    {s : PartySection} {ps : Parties} (h : resolveSection index scope path s = .ok (index', ps)) :
    Resolves index scope path s index' ps := by
  obtain ⟨fullName, domainName, partyName, environmentName, address, allow, disallow, settings,
    parties⟩ := s
  rw [resolveSection] at h
  obtain ⟨names, hnames, h⟩ := Except.exists_of_bind_eq_ok h
  obtain ⟨policy, hpolicy, h⟩ := Except.exists_of_bind_eq_ok h
  dsimp only at h
  split at h
  · next hparty => exact .group hnames hpolicy hparty h
  · next party hparty =>
    obtain ⟨index₁, henter, h⟩ := Except.exists_of_bind_eq_ok h
    split at h
    · next hdomain =>
      obtain ⟨⟨index₂, nested⟩, hnested, h⟩ := Except.exists_of_bind_eq_ok h
      cases h
      exact .tenant hnames hpolicy hparty henter hdomain hnested
    · next hdomain =>
      cases h
      exact .remote hnames hpolicy hparty henter (by simpa using hdomain)

theorem Resolves.eq_ok {index index' : NameIndex} {scope : Scope} {path : SectionPath}
    {s : PartySection} {ps : Parties} (h : Resolves index scope path s index' ps) :
    resolveSection index scope path s = .ok (index', ps) := by
  obtain ⟨fullName, domainName, partyName, environmentName, address, allow, disallow, settings,
    parties⟩ := s
  rw [resolveSection]
  cases h with
  | group hnames hpolicy hparty h =>
    simp only [hnames, hpolicy, bind, Except.bind, hparty]
    exact h
  | tenant hnames hpolicy hparty henter hdomain h =>
    simp only [hnames, hpolicy, bind, Except.bind, hparty, henter, hdomain, if_true]
    rw [show resolveSections _ ⟨_, _, _⟩ _ 0 parties = _ from h]
    rfl
  | remote hnames hpolicy hparty henter hdomain =>
    simp only [hnames, hpolicy, bind, Except.bind, hparty, henter, hdomain]
    rfl

/-- Consecutive children resolve one after the other. -/
theorem resolveSections_cons_eq_ok {index index' : NameIndex} {scope : Scope} {path : SectionPath}
    {i : Nat} {s : PartySection} {rest : List PartySection} {ps : Parties} :
    resolveSections index scope path i (s :: rest) = .ok (index', ps) ↔
      ∃ index₁ first others, resolveSection index scope (path.child i) s = .ok (index₁, first) ∧
        resolveSections index₁ scope path (i + 1) rest = .ok (index', others) ∧
        ps = first ++ others := by
  rw [resolveSections]
  constructor
  · intro h
    obtain ⟨⟨index₁, first⟩, hs, h⟩ := Except.exists_of_bind_eq_ok h
    obtain ⟨⟨index₂, others⟩, hrest, h⟩ := Except.exists_of_bind_eq_ok h
    cases h
    exact ⟨index₁, first, others, hs, hrest, rfl⟩
  · rintro ⟨index₁, first, others, hs, hrest, rfl⟩
    simp only [hs, bind, Except.bind, hrest]
    rfl

/-- A section resolves as an addition exactly if it resolves by itself in the scope of the owner. -/
theorem resolveIncrement_eq_ok {owner : PartyConfiguration} {s : PartySection} {ps : Parties} :
    resolveIncrement owner s = .ok ps ↔
      ∃ index, resolveSection [] owner.scope .increment s = .ok (index, ps) := by
  rw [resolveIncrement]
  constructor
  · intro h
    obtain ⟨⟨index, parties⟩, hs, h⟩ := Except.exists_of_bind_eq_ok h
    cases h
    exact ⟨index, hs⟩
  · rintro ⟨index, hs⟩
    rw [hs]
    rfl

/-- The root is resolved first, and its name is the first of the index. -/
theorem resolveRoot_eq_ok {s : PartySection} {r : ResolvedRoot} :
    resolveRoot s = .ok r ↔ resolveRootParty s = .ok r.root ∧
      ∃ index, resolveSections [(r.root.fullName.key, r.root.path.text)] r.root.scope .root 0
        s.parties = .ok (index, r.parties) := by
  obtain ⟨root, parties⟩ := r
  have henter : ∀ c : PartyConfiguration,
      NameIndex.enter [] c.fullName c.path = .ok [(c.fullName.key, c.path.text)] := fun _ => rfl
  rw [resolveRoot]
  constructor
  · intro h
    obtain ⟨root', hroot, hrest⟩ := Except.exists_of_bind_eq_ok h
    obtain ⟨index₁, hindex, hparties⟩ := Except.exists_of_bind_eq_ok hrest
    obtain ⟨⟨index, parties'⟩, hs, heq⟩ := Except.exists_of_bind_eq_ok hparties
    cases heq
    rw [henter] at hindex
    cases hindex
    exact ⟨hroot, index, hs⟩
  · rintro ⟨hroot, index, hs⟩
    have hs : resolveSections [(root.fullName.key, root.path.text)] root.scope .root 0 s.parties
      = .ok (index, parties) := hs
    simp only [hroot, bind, Except.bind, henter, hs]
    rfl

/-! ### Sections -/

/-- Between two states of the index the parties `ps` were made: their names were entered, no name
was entered twice, and the parties are what their places call for. -/
structure Resolved (index index' : NameIndex) (ps : Parties) : Prop where
  keys : index'.keys.Perm (ps.keys ++ index.keys)
  nodup : index.keys.Nodup → index'.keys.Nodup
  proper : ps.Proper

namespace Resolved

variable {index index' index'' : NameIndex} {ps qs : Parties}

theorem none (index : NameIndex) : Resolved index index Parties.none :=
  ⟨.refl _, id, ⟨by simp [Parties.none], by simp [Parties.none]⟩⟩

theorem append (h : Resolved index index' ps) (h' : Resolved index' index'' qs) :
    Resolved index index'' (ps ++ qs) where
  keys := by
    have := h'.keys.trans (h.keys.append_left qs.keys)
    rw [← List.append_assoc] at this
    refine this.trans (List.Perm.append_right _ ?_)
    exact List.perm_append_comm.trans (Parties.keys_append ps qs).symm
  nodup hn := h'.nodup (h.nodup hn)
  proper := h.proper.append h'.proper

theorem remote {name : FullName} {path : SectionPath} {c : PartyConfiguration}
    (h : index.enter name path = .ok index') (hname : c.fullName = name) (hc : c.kind = .remote) :
    Resolved index index' (Parties.remote c) := by
  obtain ⟨hno, hkeys⟩ := NameIndex.enter_eq_ok h
  refine ⟨?_, fun hn => ?_, ⟨by simp [Parties.remote, hc], by simp [Parties.remote]⟩⟩
  · rw [hkeys, ← hname]
    exact .refl _
  · rw [hkeys]
    exact hn.cons hno

theorem tenant {name : FullName} {path : SectionPath} {c : PartyConfiguration}
    (h : index.enter name path = .ok index') (hname : c.fullName = name)
    (hc : c.kind = .tenantDomain) (h' : Resolved index' index'' ps) :
    Resolved index index'' (Parties.tenant c ps) := by
  obtain ⟨hno, hkeys⟩ := NameIndex.enter_eq_ok h
  refine ⟨?_, fun hn => h'.nodup (hkeys ▸ hn.cons hno), .tenant hc h'.proper⟩
  have := h'.keys
  rw [hkeys, ← hname] at this
  exact this.trans (List.perm_middle.trans ((Parties.keys_tenant c ps).symm.append_right _))

end Resolved

mutual

theorem resolved_section (index : NameIndex) (scope : Scope) (path : SectionPath) :
    (s : PartySection) → {index' : NameIndex} → {ps : Parties} →
    resolveSection index scope path s = .ok (index', ps) → Resolved index index' ps
  | ⟨fullName, domainName, partyName, environmentName, address, allow, disallow, settings,
      parties⟩, index', ps, h => by
    have hres := resolves_of_eq_ok h
    clear h
    cases hres with
    | group _ _ _ h => exact resolved_sections index _ path 0 parties h
    | tenant _ _ _ henter _ h =>
      exact .tenant henter rfl rfl (resolved_sections _ _ path 0 parties h)
    | remote _ _ _ henter _ => exact .remote henter rfl rfl

theorem resolved_sections (index : NameIndex) (scope : Scope) (path : SectionPath) (i : Nat) :
    (ss : List PartySection) → {index' : NameIndex} → {ps : Parties} →
    resolveSections index scope path i ss = .ok (index', ps) → Resolved index index' ps
  | [], index', ps, h => by
    rw [resolveSections] at h
    cases h
    exact .none index
  | s :: rest, index', ps, h => by
    obtain ⟨index₁, first, others, hs, hrest, rfl⟩ := resolveSections_cons_eq_ok.mp h
    exact (resolved_section index scope (path.child i) s hs).append
      (resolved_sections index₁ scope path (i + 1) rest hrest)

end

/-! ### Trees -/

theorem resolved_increment {owner : PartyConfiguration} {s : PartySection} {ps : Parties}
    (h : resolveIncrement owner s = .ok ps) : ∃ index, Resolved [] index ps := by
  obtain ⟨index, hs⟩ := resolveIncrement_eq_ok.mp h
  exact ⟨index, resolved_section _ _ _ s hs⟩

theorem resolveIncrement_proper {owner : PartyConfiguration} {s : PartySection} {ps : Parties}
    (h : resolveIncrement owner s = .ok ps) : ps.Proper := by
  obtain ⟨index, hr⟩ := resolved_increment h
  exact hr.proper

/-- The names of an addition are pairwise distinct. -/
theorem resolveIncrement_nodup {owner : PartyConfiguration} {s : PartySection} {ps : Parties}
    (h : resolveIncrement owner s = .ok ps) : ps.keys.Nodup := by
  obtain ⟨index, hr⟩ := resolved_increment h
  simpa [NameIndex.keys] using hr.keys.nodup_iff.mp (hr.nodup List.nodup_nil)

theorem resolved_root {s : PartySection} {r : ResolvedRoot} (h : resolveRoot s = .ok r) :
    ∃ index index', index.keys = [r.root.fullName.key] ∧ Resolved index index' r.parties := by
  obtain ⟨-, index, hs⟩ := resolveRoot_eq_ok.mp h
  exact ⟨_, index, rfl, resolved_sections _ _ _ _ s.parties hs⟩

theorem resolveRoot_proper {s : PartySection} {r : ResolvedRoot} (h : resolveRoot s = .ok r) :
    r.parties.Proper := by
  obtain ⟨index, index', -, hr⟩ := resolved_root h
  exact hr.proper

/-- The names of a whole tree are pairwise distinct. -/
theorem resolveRoot_nodup {s : PartySection} {r : ResolvedRoot} (h : resolveRoot s = .ok r) :
    (r.root.fullName.key :: r.parties.keys).Nodup := by
  obtain ⟨index, index', hroot, hr⟩ := resolved_root h
  have := hr.keys.nodup_iff.mp (hr.nodup (by simp [hroot]))
  rw [hroot] at this
  exact (List.perm_append_singleton _ _).nodup_iff.mp this

end PartyGraph
