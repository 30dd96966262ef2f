import PartyGraph.Graph.Change

/-!
# What a change of the graph changes

A graph is observed through four things: the configuration and the owner of each party, which never
change, the list of tenant domains, and the list of remote parties of each owner. This module says
what every step does to each of them, so that no later proof opens `Graph.apply`.

Attaching a feature, requesting a destruction and completing one leave all four as they are
(`Graph.Alike`). Making parties leaves them as they are for the parties made before. The others
change one list.

A remote party is put into the list of its owner whether or not the owner is in the graph, so the
lists of tenant domains outside of the graph are observed as well.

## Main definitions

* `Graph.origin?`: the configuration and the owner of a party.
* `Graph.Alike`: graphs in which the same is observed.
* `Graph.Extends`: graphs in which the same is observed of the parties of the first.
* `Graph.IsRemote`, `Graph.IsTenant`: what a party was made as.

## Main results

* `Graph.root_apply`, `Graph.origin?_apply`: what every step keeps.
* `Graph.alike_attach`, `Graph.alike_doom`, `Graph.alike_complete`: steps that change none of this.
* `Graph.extends_make`: making parties.
* `Graph.apply_insert_remote`, `Graph.apply_insert_tenant` and their like: the change of one list.
-/

namespace PartyGraph

namespace Graph

variable {g g' : Graph}

/-! ### Origins -/

/-- The configuration of a party and its owner. -/
def origin? (g : Graph) (id : PartyId) : Option (PartyConfiguration × PartyRef) :=
  (g.party? id).map fun p => (p.configuration, p.owner)

/-- Whether a party was made as a remote party of an owner, which is any but a tenant domain. -/
def IsRemote (g : Graph) (owner : PartyRef) (id : PartyId) : Prop :=
  ∃ c, g.origin? id = some (c, owner) ∧ c.kind ≠ .tenantDomain

/-- Whether a party was made as a tenant domain. -/
def IsTenant (g : Graph) (id : PartyId) : Prop :=
  ∃ c owner, g.origin? id = some (c, owner) ∧ c.kind = .tenantDomain

theorem origin?_of_party? {id : PartyId} {p : OwnedParty} (h : g.party? id = some p) :
    g.origin? id = some (p.configuration, p.owner) := by
  simp [origin?, h]

theorem isRemote_of_party? {id : PartyId} {p : OwnedParty} (h : g.party? id = some p)
    (hno : p.isTenant = false) : g.IsRemote p.owner id :=
  ⟨_, origin?_of_party? h, of_decide_eq_false hno⟩

theorem isTenant_of_party? {id : PartyId} {p : OwnedParty} (h : g.party? id = some p)
    (hyes : p.isTenant = true) : g.IsTenant id :=
  ⟨_, _, origin?_of_party? h, of_decide_eq_true hyes⟩

theorem IsRemote.party? {owner : PartyRef} {id : PartyId} (h : g.IsRemote owner id) :
    ∃ p, g.party? id = some p ∧ p.owner = owner ∧ p.isTenant = false := by
  obtain ⟨c, ho, hk⟩ := h
  obtain ⟨p, hp, hpc⟩ := Option.map_eq_some_iff.mp ho
  obtain ⟨rfl, rfl⟩ := Prod.mk.inj hpc
  exact ⟨p, hp, rfl, by simp [OwnedParty.isTenant, hk]⟩

theorem IsTenant.party? {id : PartyId} (h : g.IsTenant id) :
    ∃ p, g.party? id = some p ∧ p.isTenant = true := by
  obtain ⟨c, owner, ho, hk⟩ := h
  obtain ⟨p, hp, hpc⟩ := Option.map_eq_some_iff.mp ho
  obtain ⟨rfl, rfl⟩ := Prod.mk.inj hpc
  exact ⟨p, hp, by simp [OwnedParty.isTenant, hk]⟩

theorem not_isTenant_of_isRemote {owner : PartyRef} {id : PartyId} (h : g.IsRemote owner id) :
    ¬ g.IsTenant id := by
  rintro h'
  obtain ⟨p, hp, -, hno⟩ := h.party?
  obtain ⟨p', hp', hyes⟩ := h'.party?
  obtain rfl := Option.some.inj (hp.symm.trans hp')
  rw [hno] at hyes
  cases hyes

theorem IsRemote.owner_unique {owner owner' : PartyRef} {id : PartyId} (h : g.IsRemote owner id)
    (h' : g.IsRemote owner' id) : owner = owner' := by
  obtain ⟨p, hp, rfl, -⟩ := h.party?
  obtain ⟨p', hp', rfl, -⟩ := h'.party?
  rw [Option.some.inj (hp.symm.trans hp')]

theorem lt_of_origin? {id : PartyId} {x : PartyConfiguration × PartyRef}
    (h : g.origin? id = some x) : id < g.parties.length := by
  obtain ⟨p, hp, -⟩ := Option.map_eq_some_iff.mp h
  exact (List.getElem?_eq_some_iff.mp hp).1

theorem lt_of_mem_remotesOf {id r : PartyId} (h : r ∈ g.remotesOf (.owned id)) :
    id < g.parties.length := by
  refine Decidable.byContradiction fun hlt => ?_
  have hnone : g.party? id = none := List.getElem?_eq_none (Nat.not_lt.mp hlt)
  simp [remotesOf, hnone] at h

theorem configured_of_lt {id : PartyId} (h : id < g.parties.length) :
    ∃ c, g.configuration? (.owned id) = some c := by
  have hp : g.party? id = some _ := List.getElem?_eq_getElem h
  exact ⟨_, Option.map_eq_some_iff.mpr ⟨_, hp, rfl⟩⟩

theorem configured_of_mem {owner : PartyRef} {id : PartyId} (h : id ∈ g.remotesOf owner) :
    ∃ c, g.configuration? owner = some c := by
  cases owner with
  | root => exact ⟨g.root, rfl⟩
  | owned i => exact configured_of_lt (lt_of_mem_remotesOf h)

theorem IsRemote.lt {owner : PartyRef} {id : PartyId} (h : g.IsRemote owner id) :
    id < g.parties.length := by
  obtain ⟨c, ho, -⟩ := h
  exact lt_of_origin? ho

theorem IsTenant.lt {id : PartyId} (h : g.IsTenant id) : id < g.parties.length := by
  obtain ⟨c, o, ho, -⟩ := h
  exact lt_of_origin? ho

theorem IsRemote.congr {owner : PartyRef} {id : PartyId} (h : g.IsRemote owner id)
    (ho : g'.origin? id = g.origin? id) : g'.IsRemote owner id := by
  obtain ⟨c, hc⟩ := h
  exact ⟨c, by rwa [ho]⟩

theorem IsTenant.congr {id : PartyId} (h : g.IsTenant id) (ho : g'.origin? id = g.origin? id) :
    g'.IsTenant id := by
  obtain ⟨c, o, hc⟩ := h
  exact ⟨c, o, by rwa [ho]⟩

theorem key_congr {id : PartyId} (h : g'.origin? id = g.origin? id) : g'.key id = g.key id := by
  have key (g : Graph) : g.key id = ((g.origin? id).map fun x => x.1.fullName.key).getD "" := by
    simp only [key, name?, configuration?, origin?, Option.map_map]
    rfl
  rw [key, key, h]

/-! ### Changes of one party -/

theorem party?_modify (g : Graph) (id : PartyId) (f : OwnedParty → OwnedParty) (i : PartyId) :
    (g.modify id f).party? i = if id = i then (g.party? i).map f else g.party? i := by
  simp only [party?, modify, List.getElem?_modify]
  split
  · simp [*]
  · simp [*]

theorem length_modify (g : Graph) (id : PartyId) (f : OwnedParty → OwnedParty) :
    (g.modify id f).parties.length = g.parties.length :=
  List.length_modify ..

theorem origin?_modify {f : OwnedParty → OwnedParty}
    (hf : ∀ p, (f p).configuration = p.configuration ∧ (f p).owner = p.owner) (id i : PartyId) :
    (g.modify id f).origin? i = g.origin? i := by
  rw [origin?]
  rw [party?_modify]
  split
  · rw [Option.map_map]
    congr 1
    funext p
    simp [hf p]
  · rfl

/-- Graphs in which the same is observed. -/
structure Alike (g g' : Graph) : Prop where
  root : g'.root = g.root
  length : g'.parties.length = g.parties.length
  origin : ∀ id, g'.origin? id = g.origin? id
  tenants : g'.tenants = g.tenants
  remotesOf : ∀ o, g'.remotesOf o = g.remotesOf o

namespace Alike

theorem refl (g : Graph) : Alike g g := ⟨rfl, rfl, fun _ => rfl, rfl, fun _ => rfl⟩

theorem trans {g'' : Graph} (h : Alike g g') (h' : Alike g' g'') : Alike g g'' where
  root := h'.root.trans h.root
  length := h'.length.trans h.length
  origin id := (h'.origin id).trans (h.origin id)
  tenants := h'.tenants.trans h.tenants
  remotesOf o := (h'.remotesOf o).trans (h.remotesOf o)

end Alike

theorem alike_modify {f : OwnedParty → OwnedParty}
    (hf : ∀ p, (f p).configuration = p.configuration ∧ (f p).owner = p.owner ∧
      (f p).remotes = p.remotes) (id : PartyId) : Alike g (g.modify id f) where
  root := rfl
  length := length_modify ..
  origin := origin?_modify (fun p => ⟨(hf p).1, (hf p).2.1⟩) id
  tenants := rfl
  remotesOf o := by
    cases o with
    | root => rfl
    | owned i =>
      simp only [remotesOf, party?_modify]
      split
      · cases g.party? i with
        | none => rfl
        | some p => simp [(hf p).2.2]
      · rfl

theorem doomed_kept (p : OwnedParty) : p.doomed.configuration = p.configuration ∧
    p.doomed.owner = p.owner ∧ p.doomed.remotes = p.remotes := by
  rw [OwnedParty.doomed]
  split <;> exact ⟨rfl, rfl, rfl⟩

theorem alike_doom (g : Graph) (id : PartyId) : Alike g (g.apply (.doom id)) := by
  have go (rs : List PartyId) {h : Graph} (hh : Alike g h) :
      Alike g (rs.foldl (fun g r => g.modify r OwnedParty.doomed) h) := by
    induction rs generalizing h with
    | nil => exact hh
    | cons r rs ih => exact ih (hh.trans (alike_modify doomed_kept r))
  exact go _ (alike_modify doomed_kept id)

theorem alike_complete (g : Graph) (id : PartyId) : Alike g (g.apply (.complete id)) :=
  alike_modify (f := fun p => { p with destroyState := .destroyed }) (fun _ => ⟨rfl, rfl, rfl⟩) id

theorem alike_attach (g : Graph) (p : PartyRef) (type value : String) :
    Alike g (g.apply (.attach p type value)) := by
  cases p with
  | root => exact ⟨rfl, rfl, fun _ => rfl, rfl, fun o => by cases o <;> rfl⟩
  | owned id =>
    exact alike_modify (f := fun p => { p with features := p.features.with type value })
      (fun _ => ⟨rfl, rfl, rfl⟩) id

/-! ### Making parties -/

/-- Graphs of which the second has more parties and is the same for those of the first. -/
structure Extends (g g' : Graph) : Prop where
  root : g'.root = g.root
  length : g.parties.length ≤ g'.parties.length
  origin : ∀ id < g.parties.length, g'.origin? id = g.origin? id
  tenants : g'.tenants = g.tenants
  remotesOf : ∀ o, (∀ id, o = .owned id → id < g.parties.length) → g'.remotesOf o = g.remotesOf o

namespace Extends

theorem trans {g'' : Graph} (h : Extends g g') (h' : Extends g' g'') : Extends g g'' where
  root := h'.root.trans h.root
  length := Nat.le_trans h.length h'.length
  origin id hid := (h'.origin id (Nat.lt_of_lt_of_le hid h.length)).trans (h.origin id hid)
  tenants := h'.tenants.trans h.tenants
  remotesOf o ho :=
    (h'.remotesOf o fun id hid => Nat.lt_of_lt_of_le (ho id hid) h.length).trans (h.remotesOf o ho)

theorem of_alike (h : Alike g g') : Extends g g' :=
  ⟨h.root, h.length ▸ Nat.le_refl _, fun id _ => h.origin id, h.tenants, fun o _ => h.remotesOf o⟩

theorem refl (g : Graph) : Extends g g := of_alike (.refl g)

end Extends

theorem length_make (g : Graph) (ps : List OwnedParty) :
    (g.apply (.make ps)).parties.length = g.parties.length + ps.length :=
  List.length_append

theorem extends_make (g : Graph) (ps : List OwnedParty) : Extends g (g.apply (.make ps)) := by
  have old {id : PartyId} (h : id < g.parties.length) :
      (g.apply (.make ps)).party? id = g.party? id := List.getElem?_append_left h
  constructor
  case root => rfl
  case length =>
    rw [length_make]
    exact Nat.le_add_right _ _
  case origin =>
    intro id hid
    rw [origin?, old hid]
    rfl
  case tenants => rfl
  case remotesOf =>
    intro o ho
    cases o with
    | root => rfl
    | owned id => simp only [remotesOf, old (ho id rfl)]

/-! ### Changes of one list -/

section Lists

variable {id : PartyId} {owner : PartyRef} {f : List PartyId → List PartyId}

theorem origin?_modifyRemotes (g : Graph) (owner : PartyRef) (f : List PartyId → List PartyId)
    (i : PartyId) : (g.modifyRemotes owner f).origin? i = g.origin? i := by
  cases owner with
  | root => rfl
  | owned id =>
    exact origin?_modify (f := fun p => { p with remotes := f p.remotes })
      (fun _ => ⟨rfl, rfl⟩) id i

theorem length_modifyRemotes (g : Graph) (owner : PartyRef) (f : List PartyId → List PartyId) :
    (g.modifyRemotes owner f).parties.length = g.parties.length := by
  cases owner with
  | root => rfl
  | owned id => exact length_modify ..

theorem root_modifyRemotes (g : Graph) (owner : PartyRef) (f : List PartyId → List PartyId) :
    (g.modifyRemotes owner f).root = g.root := by
  cases owner <;> rfl

theorem tenants_modifyRemotes (g : Graph) (owner : PartyRef) (f : List PartyId → List PartyId) :
    (g.modifyRemotes owner f).tenants = g.tenants := by
  cases owner <;> rfl

theorem remotesOf_modifyRemotes_of_ne {o : PartyRef} (h : o ≠ owner) :
    (g.modifyRemotes owner f).remotesOf o = g.remotesOf o := by
  cases owner with
  | root =>
    cases o with
    | root => exact absurd rfl h
    | owned i => rfl
  | owned i =>
    cases o with
    | root => rfl
    | owned j =>
      have : i ≠ j := fun hij => h (hij ▸ rfl)
      simp [modifyRemotes, remotesOf, party?_modify, this]

/-- The list of an owner is the one changed, unless there is no such owner. -/
theorem remotesOf_modifyRemotes_same (h : f [] = [] ∨ ∃ c, g.configuration? owner = some c) :
    (g.modifyRemotes owner f).remotesOf owner = f (g.remotesOf owner) := by
  cases owner with
  | root => rfl
  | owned i =>
    simp only [modifyRemotes, remotesOf, party?_modify, if_true]
    cases hp : g.party? i with
    | some p => rfl
    | none =>
      rcases h with h | ⟨c, hc⟩
      · simp [h]
      · simp [configuration?, hp] at hc

theorem origin?_modifySiblings (g : Graph) (id : PartyId) (f : List PartyId → List PartyId)
    (i : PartyId) : (g.modifySiblings id f).origin? i = g.origin? i := by
  rw [modifySiblings]
  split
  · rfl
  · split
    · rfl
    · exact origin?_modifyRemotes ..

theorem length_modifySiblings (g : Graph) (id : PartyId) (f : List PartyId → List PartyId) :
    (g.modifySiblings id f).parties.length = g.parties.length := by
  rw [modifySiblings]
  split
  · rfl
  · split
    · rfl
    · exact length_modifyRemotes ..

theorem root_modifySiblings (g : Graph) (id : PartyId) (f : List PartyId → List PartyId) :
    (g.modifySiblings id f).root = g.root := by
  rw [modifySiblings]
  split
  · rfl
  · split
    · rfl
    · exact root_modifyRemotes ..

theorem modifySiblings_remote (h : g.IsRemote owner id) :
    g.modifySiblings id f = g.modifyRemotes owner f := by
  obtain ⟨p, hp, rfl, hno⟩ := h.party?
  simp [modifySiblings, hp, hno]

theorem modifySiblings_tenant (h : g.IsTenant id) :
    g.modifySiblings id f = { g with tenants := f g.tenants } := by
  obtain ⟨p, hp, hyes⟩ := h.party?
  simp [modifySiblings, hp, hyes]

/-- Of the lists of remote parties only the one changes in which the party belongs. -/
theorem remotesOf_modifySiblings (g : Graph) (id : PartyId) {o : PartyRef}
    (hf : f [] = [] ∨ ∃ c, g.configuration? o = some c) :
    (g.modifySiblings id f).remotesOf o = g.remotesOf o ∨
      g.IsRemote o id ∧ (g.modifySiblings id f).remotesOf o = f (g.remotesOf o) := by
  cases hp : g.party? id with
  | none => exact .inl (by simp [modifySiblings, hp])
  | some p =>
    cases hk : p.isTenant with
    | true =>
      rw [modifySiblings_tenant (isTenant_of_party? hp hk)]
      exact .inl (by cases o <;> rfl)
    | false =>
      have hr := isRemote_of_party? hp hk
      rw [modifySiblings_remote hr]
      by_cases ho : o = p.owner
      · subst ho
        exact .inr ⟨hr, remotesOf_modifyRemotes_same hf⟩
      · exact .inl (remotesOf_modifyRemotes_of_ne ho)

/-- The list of tenant domains changes only if the party belongs there. -/
theorem tenants_modifySiblings (g : Graph) (id : PartyId) (f : List PartyId → List PartyId) :
    (g.modifySiblings id f).tenants = g.tenants ∨
      g.IsTenant id ∧ (g.modifySiblings id f).tenants = f g.tenants := by
  cases hp : g.party? id with
  | none => exact .inl (by simp [modifySiblings, hp])
  | some p =>
    cases hk : p.isTenant with
    | true =>
      have ht := isTenant_of_party? hp hk
      exact .inr ⟨ht, by rw [modifySiblings_tenant ht]⟩
    | false =>
      rw [modifySiblings_remote (isRemote_of_party? hp hk)]
      exact .inl (tenants_modifyRemotes ..)

theorem apply_insert_remote (h : g.IsRemote owner id) :
    g.apply (.insert id) = g.modifyRemotes owner (· ++ [id]) :=
  modifySiblings_remote h

theorem apply_insert_tenant (h : g.IsTenant id) :
    g.apply (.insert id) = { g with tenants := g.tenants ++ [id] } :=
  modifySiblings_tenant h

theorem apply_remove_remote (h : g.IsRemote owner id) :
    g.apply (.remove id) = g.modifyRemotes owner (·.filter (· ≠ id)) :=
  modifySiblings_remote h

theorem apply_remove_tenant (h : g.IsTenant id) :
    g.apply (.remove id) = { g with tenants := g.tenants.filter (· ≠ id) } :=
  modifySiblings_tenant h

theorem apply_clear (g : Graph) (id : PartyId) :
    g.apply (.clear id) = g.modifyRemotes (.owned id) fun _ => [] := rfl

end Lists

/-! ### What every step keeps -/

theorem root_apply (g : Graph) (c : GraphChange) : (g.apply c).root = g.root := by
  cases c with
  | make ps => rfl
  | insert id => exact root_modifySiblings ..
  | remove id => exact root_modifySiblings ..
  | clear id => rfl
  | doom id => exact (alike_doom g id).root
  | complete id => rfl
  | attach p type value => exact (alike_attach g p type value).root

/-- No step but the making of parties gives a party an origin. -/
theorem origin?_apply (g : Graph) {c : GraphChange} (hc : ∀ ps, c ≠ .make ps) (i : PartyId) :
    (g.apply c).origin? i = g.origin? i := by
  cases c with
  | make ps => exact absurd rfl (hc ps)
  | insert id => exact origin?_modifySiblings ..
  | remove id => exact origin?_modifySiblings ..
  | clear id => exact origin?_modifyRemotes g (.owned id) (fun _ => []) i
  | doom id => exact (alike_doom g id).origin i
  | complete id => exact (alike_complete g id).origin i
  | attach p type value => exact (alike_attach g p type value).origin i

/-- Whoever is there keeps the origin. -/
theorem origin?_apply_of_lt (g : Graph) (c : GraphChange) {i : PartyId}
    (hi : i < g.parties.length) : (g.apply c).origin? i = g.origin? i := by
  cases c with
  | make ps => exact (extends_make g ps).origin i hi
  | insert | remove | clear | doom | complete | attach => exact origin?_apply g (by simp) i

theorem length_apply (g : Graph) {c : GraphChange} (hc : ∀ ps, c ≠ .make ps) :
    (g.apply c).parties.length = g.parties.length := by
  cases c with
  | make ps => exact absurd rfl (hc ps)
  | insert id => exact length_modifySiblings ..
  | remove id => exact length_modifySiblings ..
  | clear id => exact length_modifyRemotes g (.owned id) fun _ => []
  | doom id => exact (alike_doom g id).length
  | complete id => exact (alike_complete g id).length
  | attach p type value => exact (alike_attach g p type value).length

@[simp] theorem origin?_insert (g : Graph) (id i : PartyId) :
    (g.apply (.insert id)).origin? i = g.origin? i := origin?_apply g (by simp) i

@[simp] theorem origin?_remove (g : Graph) (id i : PartyId) :
    (g.apply (.remove id)).origin? i = g.origin? i := origin?_apply g (by simp) i

@[simp] theorem origin?_clear (g : Graph) (id i : PartyId) :
    (g.apply (.clear id)).origin? i = g.origin? i := origin?_apply g (by simp) i

end Graph

end PartyGraph
