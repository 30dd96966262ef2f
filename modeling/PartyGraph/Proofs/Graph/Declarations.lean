import PartyGraph.Graph.Change
import PartyGraph.Graph.Draft

/-!
# What parties were declared as

The configuration of a party and that of its owner are fixed when the party is made, and so is
whether it is dynamic. No step of the graph touches them afterwards, whatever becomes of the party,
and so the list of all of them only grows, at its end.

## Main definitions

* `OwnedParty.Fixed`: what does not depend on what may become of a party.
* `Graph.declarations`: the configuration of each party, and that of its owner.

## Main results

* `OwnedParty.Fixed.map_apply`, `OwnedParty.Fixed.of_apply`, `OwnedParty.Fixed.apply`,
  `Graph.declarations_apply`: no step but the making of parties changes the list.
* `Draft.mem_make`: what the parties of a draft are declared as.
-/

namespace PartyGraph

namespace OwnedParty

/-- Whether something said of a party does not depend on what may become of it: its remote parties,
its features and the state of its destruction. -/
structure Fixed {α : Type} (d : OwnedParty → α) : Prop where
  remotes : ∀ p rs, d { p with remotes := rs } = d p
  features : ∀ p fs, d { p with features := fs } = d p
  destroyState : ∀ p state, d { p with destroyState := state } = d p

/-- The configuration of a party, and that of its owner. -/
def declaration (p : OwnedParty) : PartyConfiguration × PartyConfiguration :=
  (p.configuration, p.ownerConfiguration)

theorem fixed_declaration : Fixed declaration := ⟨fun _ _ => rfl, fun _ _ => rfl, fun _ _ => rfl⟩

theorem fixed_dynamic : Fixed OwnedParty.dynamic := ⟨fun _ _ => rfl, fun _ _ => rfl, fun _ _ => rfl⟩

namespace Fixed

variable {α : Type} {d : OwnedParty → α}

theorem map_modify {f : OwnedParty → OwnedParty} (hf : ∀ p, d (f p) = d p) (g : Graph)
    (id : PartyId) : (g.modify id f).parties.map d = g.parties.map d := by
  refine List.ext_getElem? fun i => ?_
  simp only [Graph.modify, List.getElem?_map, List.getElem?_modify]
  cases g.parties[i]? with
  | none => rfl
  | some p => by_cases hi : id = i <;> simp [hi, hf]

theorem map_modifyRemotes (h : Fixed d) (g : Graph) (owner : PartyRef)
    (f : List PartyId → List PartyId) :
    (g.modifyRemotes owner f).parties.map d = g.parties.map d := by
  cases owner with
  | root => rfl
  | owned id => exact map_modify (fun p => h.remotes p (f p.remotes)) g id

theorem map_modifySiblings (h : Fixed d) (g : Graph) (id : PartyId)
    (f : List PartyId → List PartyId) :
    (g.modifySiblings id f).parties.map d = g.parties.map d := by
  rw [Graph.modifySiblings]
  split
  · rfl
  · split
    · rfl
    · exact h.map_modifyRemotes ..

theorem doomed (h : Fixed d) (p : OwnedParty) : d p.doomed = d p := by
  rw [OwnedParty.doomed]
  split
  · exact h.destroyState ..
  · rfl

theorem map_doom (h : Fixed d) (g : Graph) (id : PartyId) :
    (g.apply (.doom id)).parties.map d = g.parties.map d := by
  have go (rs : List PartyId) {g' : Graph} (hg : g'.parties.map d = g.parties.map d) :
      (rs.foldl (fun g r => g.modify r OwnedParty.doomed) g').parties.map d
        = g.parties.map d := by
    induction rs generalizing g' with
    | nil => exact hg
    | cons r rs ih => exact ih ((map_modify h.doomed g' r).trans hg)
  exact go _ (map_modify h.doomed g id)

/-- No step but the making of parties changes it. -/
theorem map_apply (h : Fixed d) (g : Graph) {c : GraphChange} (hc : ∀ ps, c ≠ .make ps) :
    (g.apply c).parties.map d = g.parties.map d := by
  cases c with
  | make ps => exact absurd rfl (hc ps)
  | insert id | remove id => exact h.map_modifySiblings ..
  | clear id => exact h.map_modifyRemotes g (.owned id) fun _ => []
  | doom id => exact h.map_doom g id
  | complete id => exact map_modify (fun p => h.destroyState p .destroyed) g id
  | attach p type value =>
    cases p with
    | root => rfl
    | owned id => exact map_modify (fun p => h.features p (p.features.with type value)) g id

/-- Whoever is there after a step was there before, the same in this, or is made by it. -/
theorem of_apply {g : Graph} {c : GraphChange} {id : PartyId} {p : OwnedParty} (h : Fixed d)
    (hp : (g.apply c).party? id = some p) :
    (∃ q, g.party? id = some q ∧ d q = d p) ∨
      ∃ ps, c = .make ps ∧ p ∈ ps ∧ g.parties.length ≤ id := by
  by_cases hmake : ∃ ps, c = .make ps
  · obtain ⟨ps, rfl⟩ := hmake
    rcases Nat.lt_or_ge id g.parties.length with hlt | hle
    · exact .inl ⟨p, (List.getElem?_append_left hlt).symm.trans hp, rfl⟩
    · have hnew : ps[id - g.parties.length]? = some p :=
        (List.getElem?_append_right hle).symm.trans hp
      exact .inr ⟨ps, rfl, List.mem_of_getElem? hnew, hle⟩
  · have same := h.map_apply g (not_exists.mp hmake)
    have hd : (g.parties.map d)[id]? = some (d p) := by
      rw [← same, List.getElem?_map]
      exact Option.map_eq_some_iff.mpr ⟨p, hp, rfl⟩
    exact .inl (Option.map_eq_some_iff.mp ((List.getElem?_map ..).symm.trans hd))

/-- Whoever is there before a step is there after it, the same in this. -/
theorem apply {g : Graph} {id : PartyId} {p : OwnedParty} (h : Fixed d) (hp : g.party? id = some p)
    (c : GraphChange) : ∃ q, (g.apply c).party? id = some q ∧ d q = d p := by
  by_cases hmake : ∃ ps, c = .make ps
  · obtain ⟨ps, rfl⟩ := hmake
    have hlt := (List.getElem?_eq_some_iff.mp hp).1
    exact ⟨p, (List.getElem?_append_left hlt).trans hp, rfl⟩
  · have same := h.map_apply g (not_exists.mp hmake)
    have hd : ((g.apply c).parties.map d)[id]? = some (d p) := by
      rw [same, List.getElem?_map]
      exact Option.map_eq_some_iff.mpr ⟨p, hp, rfl⟩
    exact Option.map_eq_some_iff.mp ((List.getElem?_map ..).symm.trans hd)

end Fixed

end OwnedParty

open OwnedParty (fixed_declaration)

namespace Graph

variable {g g' : Graph}

/-- The configuration of each party ever made, and that of its owner, in the order of numbers. -/
def declarations (g : Graph) : List (PartyConfiguration × PartyConfiguration) :=
  g.parties.map OwnedParty.declaration

theorem length_declarations (g : Graph) : g.declarations.length = g.parties.length :=
  List.length_map _

theorem getElem?_declarations (g : Graph) (id : PartyId) :
    g.declarations[id]? = (g.party? id).map OwnedParty.declaration :=
  List.getElem?_map ..

theorem declarations_make (g : Graph) (ps : List OwnedParty) :
    (g.apply (.make ps)).declarations = g.declarations ++ ps.map OwnedParty.declaration :=
  List.map_append

/-- No step but the making of parties changes the list. -/
theorem declarations_apply (g : Graph) {c : GraphChange} (hc : ∀ ps, c ≠ .make ps) :
    (g.apply c).declarations = g.declarations :=
  fixed_declaration.map_apply g hc

theorem declarations_prefix (g : Graph) (c : GraphChange) :
    g.declarations <+: (g.apply c).declarations := by
  cases c with
  | make ps => exact ⟨_, (declarations_make g ps).symm⟩
  | insert | remove | clear | doom | complete | attach =>
    exact ⟨[], by rw [List.append_nil, declarations_apply g (by simp)]⟩

end Graph

namespace Draft

variable {root : PartyConfiguration} {dynamic : Bool}

theorem mem_ofTenants {first : PartyId} {ts : List TenantConfiguration} {p : OwnedParty}
    (h : p ∈ (ofTenants root dynamic first ts).2) :
    ∃ t ∈ ts, p.declaration = (t.party, root) ∨ ∃ c ∈ t.remotes, p.declaration = (c, t.party) := by
  induction ts generalizing first with
  | nil => cases h
  | cons t ts ih =>
    rcases List.mem_append.mp h with h | h
    · refine ⟨t, List.mem_cons_self, ?_⟩
      rcases List.mem_cons.mp h with rfl | h
      · exact .inl rfl
      · obtain ⟨c, hc, rfl⟩ := List.mem_map.mp h
        exact .inr ⟨c, hc, rfl⟩
    · obtain ⟨t', ht', h⟩ := ih h
      exact ⟨t', List.mem_cons_of_mem _ ht', h⟩

/-- A party of a draft is a remote party of the owner, a tenant domain of the root or a remote party
of such a tenant domain. -/
theorem mem_make {owner : PartyRef} {c : PartyConfiguration} {first : PartyId} {ps : Parties}
    {p : OwnedParty} (h : p ∈ (make root owner c dynamic first ps).parties) :
    (∃ r ∈ ps.remotes, p.declaration = (r, c)) ∨
      ∃ t ∈ ps.tenants, p.declaration = (t.party, root) ∨
        ∃ r ∈ t.remotes, p.declaration = (r, t.party) := by
  rcases List.mem_append.mp h with h | h
  · obtain ⟨r, hr, rfl⟩ := List.mem_map.mp h
    exact .inl ⟨r, hr, rfl⟩
  · exact .inr (mem_ofTenants h)

end Draft

end PartyGraph
