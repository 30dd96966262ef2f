import Mathlib.Data.List.Flatten
import Mathlib.Data.List.Nodup
import Mathlib.Data.List.Perm.Subperm
import PartyGraph.Proofs.Graph.Changes

/-!
# Who is in the graph

The lists that are the graph hold what their names say: the list of an owner holds remote parties
that were made for that owner, and the list of tenant domains holds tenant domains
(`Graph.Sound`). From this follows what each step does to the parties of the graph as a whole.

A remote party put into the list of its owner comes into the graph only when the owner is in it
(`Graph.Rooted`). Otherwise the graph is the same as before, and the party is in a list that nobody
sees.

Names are kept distinct by leaving room for those to come: `Graph.Room g ids` says that the names in
use and those of `ids` are pairwise distinct. When the first of `ids` is put into the graph there is
room for the others.

## Main definitions

* `Graph.Sound`, `Graph.Rooted`: as above.
* `Graph.Room`: room for names.
* `Graph.without`: the graph after a party has left.

## Main results

* `Graph.perm_insert_remote`, `Graph.allParties_insert_tenant`, `Graph.allParties_remove_remote`,
  `Graph.mem_remove_tenant`: who is in the graph after a step.
* `Graph.Room.insert_remote`, `Graph.Room.insert_tenant`: room is used up one name at a time.
* `Graph.Sound.without`, `Graph.Room.without`: what a party that leaves does not disturb.
-/

namespace PartyGraph

namespace Graph

variable {g g' : Graph} {id : PartyId} {owner : PartyRef} {ids : List PartyId}

/-! ### Sound lists -/

/-- The lists hold parties of the sort that belongs there. -/
structure Sound (g : Graph) : Prop where
  remotes : ∀ o, ∀ r ∈ g.remotesOf o, g.IsRemote o r
  tenants : ∀ t ∈ g.tenants, g.IsTenant t

/-- Lists stay sound when no party gets another origin and what comes into a list belongs there. -/
theorem Sound.mono (h : g.Sound)
    (ho : ∀ id, id < g.parties.length → g'.origin? id = g.origin? id)
    (hr : ∀ o, ∀ r ∈ g'.remotesOf o, r ∈ g.remotesOf o ∨ g'.IsRemote o r)
    (ht : ∀ t ∈ g'.tenants, t ∈ g.tenants ∨ g'.IsTenant t) : g'.Sound where
  remotes o r hmem :=
    (hr o r hmem).elim (fun hr => (h.remotes o r hr).congr (ho r (h.remotes o r hr).lt)) id
  tenants t hmem :=
    (ht t hmem).elim (fun ht => (h.tenants t ht).congr (ho t (h.tenants t ht).lt)) id

theorem Sound.alike (h : g.Sound) (ha : Alike g g') : g'.Sound :=
  h.mono (fun id _ => ha.origin id) (fun o _ hr => .inl (ha.remotesOf o ▸ hr))
    fun _ ht => .inl (ha.tenants ▸ ht)

/-- Whether remote parties of an owner are in the graph: the owner is the root or in it itself. -/
def Rooted (g : Graph) : PartyRef → Prop
  | .root => True
  | .owned t => t ∈ g.tenants

theorem mem_allParties : id ∈ g.allParties ↔
    id ∈ g.tenants ∨ ∃ o, g.Rooted o ∧ id ∈ g.remotesOf o := by
  simp only [allParties, List.mem_append, List.mem_flatMap, List.mem_cons]
  constructor
  · rintro (h | ⟨t, ht, rfl | h⟩)
    · exact .inr ⟨.root, trivial, h⟩
    · exact .inl ht
    · exact .inr ⟨.owned t, ht, h⟩
  · rintro (h | ⟨o, ho, h⟩)
    · exact .inr ⟨id, h, .inl rfl⟩
    · cases o with
      | root => exact .inl h
      | owned t => exact .inr ⟨t, ho, .inr h⟩

theorem Sound.owner_of_mem (h : g.Sound) (hr : g.IsRemote owner id) {o : PartyRef}
    (hmem : id ∈ g.remotesOf o) : o = owner :=
  (h.remotes o id hmem).owner_unique hr

theorem Sound.not_mem_tenants (h : g.Sound) (hr : g.IsRemote owner id) : id ∉ g.tenants :=
  fun hmem => not_isTenant_of_isRemote hr (h.tenants id hmem)

theorem Sound.mem_allParties_tenant (h : g.Sound) (ht : g.IsTenant id) :
    id ∈ g.allParties ↔ id ∈ g.tenants := by
  rw [mem_allParties]
  refine ⟨?_, .inl⟩
  rintro (hmem | ⟨o, -, hmem⟩)
  · exact hmem
  · exact absurd ht (not_isTenant_of_isRemote (h.remotes o id hmem))

theorem allParties_congr (ht : g'.tenants = g.tenants)
    (hr : ∀ o, g.Rooted o → g'.remotesOf o = g.remotesOf o) : g'.allParties = g.allParties := by
  have root : g'.remotes = g.remotes := hr .root trivial
  rw [allParties, allParties, root, ht]
  congr 1
  exact List.flatMap_congr fun t ht => by rw [hr (.owned t) ht]

theorem Alike.allParties (h : Alike g g') : g'.allParties = g.allParties :=
  allParties_congr h.tenants fun o _ => h.remotesOf o

theorem Sound.lt (h : g.Sound) (hid : id ∈ g.allParties) : id < g.parties.length := by
  rcases mem_allParties.mp hid with ht | ⟨o, -, hr⟩
  · exact (h.tenants id ht).lt
  · exact (h.remotes o id hr).lt

theorem Extends.rooted (h : Extends g g') : g'.Rooted owner ↔ g.Rooted owner := by
  cases owner with
  | root => rfl
  | owned t =>
    show t ∈ g'.tenants ↔ t ∈ g.tenants
    rw [h.tenants]

/-- Parties that are made are not in the graph yet. -/
theorem Extends.allParties (h : Extends g g') (hs : g.Sound) : g'.allParties = g.allParties := by
  refine allParties_congr h.tenants fun o ho => h.remotesOf o ?_
  rintro t rfl
  exact (hs.tenants t ho).lt

theorem tenants_sublist (g : Graph) : g.tenants.Sublist g.allParties := by
  have go (ts : List PartyId) : ts.Sublist (ts.flatMap fun t => t :: g.remotesOf (.owned t)) := by
    induction ts with
    | nil => exact .slnil
    | cons t ts ih => exact (ih.trans (List.sublist_append_right _ _)).cons_cons t
  exact (go g.tenants).trans (List.sublist_append_right _ _)

theorem sublist_of_mem_tenants {t : PartyId} (h : t ∈ g.tenants) :
    (t :: g.remotesOf (.owned t)).Sublist g.allParties := by
  refine List.Sublist.trans ?_ (List.sublist_append_right _ _)
  exact List.sublist_flatten_of_mem (List.mem_map_of_mem h)

theorem nodup_allParties (h : g.keys.Nodup) : g.allParties.Nodup :=
  (List.nodup_cons.mp h).2.of_map _

theorem nodup_tenants (h : g.keys.Nodup) : g.tenants.Nodup :=
  (tenants_sublist g).nodup (nodup_allParties h)

/-! ### Putting a party into the graph -/

section Insert

theorem remotesOf_insert_remote (hr : g.IsRemote owner id)
    (hc : ∃ c, g.configuration? owner = some c) (o : PartyRef) :
    (g.apply (.insert id)).remotesOf o
      = if o = owner then g.remotesOf o ++ [id] else g.remotesOf o := by
  rw [apply_insert_remote hr]
  split
  · next ho =>
    subst ho
    exact remotesOf_modifyRemotes_same (.inr hc)
  · next ho => exact remotesOf_modifyRemotes_of_ne ho

theorem Sound.insert_remote (h : g.Sound) (hr : g.IsRemote owner id)
    (hc : ∃ c, g.configuration? owner = some c) : (g.apply (.insert id)).Sound := by
  refine h.mono (fun i _ => origin?_insert g id i) (fun o r hmem => ?_) fun t ht => .inl ?_
  · rw [remotesOf_insert_remote hr hc] at hmem
    split at hmem
    · next hown =>
      subst hown
      rcases List.mem_append.mp hmem with hmem | hmem
      · exact .inl hmem
      · rw [List.mem_singleton.mp hmem]
        exact .inr (hr.congr (origin?_insert g id id))
    · exact .inl hmem
  · rwa [apply_insert_remote hr, tenants_modifyRemotes] at ht

/-- A remote party of an owner in the graph comes into the graph. -/
theorem perm_insert_remote (hr : g.IsRemote owner id) (hc : ∃ c, g.configuration? owner = some c)
    (hroot : g.Rooted owner) (hn : g.tenants.Nodup) :
    (g.apply (.insert id)).allParties.Perm (id :: g.allParties) := by
  have ht : (g.apply (.insert id)).tenants = g.tenants := by
    rw [apply_insert_remote hr, tenants_modifyRemotes]
  have hlist := remotesOf_insert_remote hr hc
  have hremotes : (g.apply (.insert id)).remotes
      = if .root = owner then g.remotes ++ [id] else g.remotes := hlist .root
  rw [allParties, allParties, ht, hremotes]
  cases owner with
  | root =>
    have : g.tenants.flatMap (fun t => t :: (g.apply (.insert id)).remotesOf (.owned t))
        = g.tenants.flatMap fun t => t :: g.remotesOf (.owned t) :=
      List.flatMap_congr fun t _ => by rw [hlist, if_neg (by simp)]
    rw [this, if_pos rfl, List.append_assoc]
    exact List.perm_middle
  | owned t =>
    obtain ⟨before, after, hsplit⟩ := List.append_of_mem hroot
    rw [hsplit] at hn ⊢
    obtain ⟨hbefore, hafter⟩ : t ∉ before ∧ t ∉ after := by
      simp only [List.nodup_append, List.nodup_cons, List.mem_cons] at hn
      exact ⟨fun h => hn.2.2 t h t (.inl rfl) rfl, hn.2.1.1⟩
    have same (ts : List PartyId) (h : t ∉ ts) :
        ts.flatMap (fun t => t :: (g.apply (.insert id)).remotesOf (.owned t))
          = ts.flatMap fun t => t :: g.remotesOf (.owned t) :=
      List.flatMap_congr fun t' ht' => by
        rw [hlist, if_neg]
        rintro ⟨⟩
        exact h ht'
    rw [if_neg (by simp), List.flatMap_append, List.flatMap_append, List.flatMap_cons,
      List.flatMap_cons, same before hbefore, same after hafter, hlist, if_pos rfl]
    simpa using @List.perm_middle _ id (g.remotes ++
      (before.flatMap fun t => t :: g.remotesOf (.owned t)) ++ t :: g.remotesOf (.owned t))
      (after.flatMap fun t => t :: g.remotesOf (.owned t))

/-- One of an owner outside of the graph does not. -/
theorem allParties_insert_remote_of_not_rooted (hr : g.IsRemote owner id)
    (hc : ∃ c, g.configuration? owner = some c) (hroot : ¬ g.Rooted owner) :
    (g.apply (.insert id)).allParties = g.allParties := by
  refine allParties_congr ?_ fun o ho => ?_
  · rw [apply_insert_remote hr, tenants_modifyRemotes]
  · rw [remotesOf_insert_remote hr hc, if_neg]
    rintro rfl
    exact hroot ho

theorem Sound.insert_tenant (h : g.Sound) (ht : g.IsTenant id) : (g.apply (.insert id)).Sound := by
  rw [apply_insert_tenant ht]
  refine h.mono (fun _ _ => rfl) (fun o r hmem => .inl ?_) fun t hmem => ?_
  · cases o <;> exact hmem
  · rcases List.mem_append.mp hmem with hmem | hmem
    · exact .inl hmem
    · rw [List.mem_singleton.mp hmem]
      exact .inr ht

theorem Rooted.insert_remote {o : PartyRef} (hr : g.IsRemote owner id) :
    (g.apply (.insert id)).Rooted o ↔ g.Rooted o := by
  rw [apply_insert_remote hr]
  cases o with
  | root => rfl
  | owned t =>
    show t ∈ (g.modifyRemotes owner (· ++ [id])).tenants ↔ t ∈ g.tenants
    rw [tenants_modifyRemotes]

/-- A tenant domain comes into the graph with its remote parties. -/
theorem allParties_insert_tenant (ht : g.IsTenant id) :
    (g.apply (.insert id)).allParties = g.allParties ++ id :: g.remotesOf (.owned id) := by
  rw [apply_insert_tenant ht]
  simp only [allParties, List.flatMap_append, List.flatMap_cons, List.flatMap_nil, List.append_nil,
    List.append_assoc]
  rfl

end Insert

/-! ### Taking a party out of the graph -/

section Remove

theorem remotesOf_remove_remote (h : g.Sound) (hr : g.IsRemote owner id) (o : PartyRef) :
    (g.apply (.remove id)).remotesOf o = (g.remotesOf o).filter (· ≠ id) := by
  rw [apply_remove_remote hr]
  by_cases ho : o = owner
  · subst ho
    exact remotesOf_modifyRemotes_same (.inl rfl)
  · rw [remotesOf_modifyRemotes_of_ne ho]
    refine (List.filter_eq_self.mpr fun r hmem => decide_eq_true ?_).symm
    rintro rfl
    exact ho (h.owner_of_mem hr hmem)

theorem Sound.remove_remote (h : g.Sound) (hr : g.IsRemote owner id) :
    (g.apply (.remove id)).Sound := by
  refine h.mono (fun i _ => origin?_remove g id i) (fun o r hmem => .inl ?_)
    fun t hmem => .inl ?_
  · rw [remotesOf_remove_remote h hr] at hmem
    exact List.mem_of_mem_filter hmem
  · rwa [apply_remove_remote hr, tenants_modifyRemotes] at hmem

/-- A remote party leaves the graph alone. -/
theorem allParties_remove_remote (h : g.Sound) (hr : g.IsRemote owner id) :
    (g.apply (.remove id)).allParties = g.allParties.filter (· ≠ id) := by
  have ht : (g.apply (.remove id)).tenants = g.tenants := by
    rw [apply_remove_remote hr, tenants_modifyRemotes]
  have hlist := remotesOf_remove_remote h hr
  have hremotes : (g.apply (.remove id)).remotes = g.remotes.filter (· ≠ id) := hlist .root
  rw [allParties, allParties, ht, hremotes, List.filter_append, List.filter_flatMap]
  congr 1
  refine List.flatMap_congr fun t hmem => ?_
  have hne : t ≠ id := fun heq => h.not_mem_tenants hr (heq ▸ hmem)
  rw [hlist, List.filter_cons_of_pos (by simpa using hne)]

theorem Sound.remove_tenant (h : g.Sound) (ht : g.IsTenant id) : (g.apply (.remove id)).Sound := by
  rw [apply_remove_tenant ht]
  refine h.mono (fun _ _ => rfl) (fun o r hmem => .inl ?_) fun t hmem => .inl ?_
  · cases o <;> exact hmem
  · exact List.mem_of_mem_filter hmem

/-- A tenant domain leaves the graph with its remote parties. -/
theorem mem_remove_tenant (h : g.Sound) (ht : g.IsTenant id) (x : PartyId) :
    x ∈ (g.apply (.remove id)).allParties ↔
      x ∈ g.allParties ∧ x ≠ id ∧ x ∉ g.remotesOf (.owned id) := by
  have hrooted (o : PartyRef) : Rooted { g with tenants := g.tenants.filter (· ≠ id) } o ↔
      g.Rooted o ∧ o ≠ .owned id := by
    cases o with
    | root => simp [Rooted]
    | owned t => simp [Rooted]
  rw [apply_remove_tenant ht, mem_allParties, mem_allParties]
  constructor
  · rintro (hx | ⟨o, ho, hx⟩)
    · obtain ⟨hx, hne⟩ : x ∈ g.tenants ∧ x ≠ id := by simpa using hx
      refine ⟨.inl hx, hne, fun hmem => ?_⟩
      exact not_isTenant_of_isRemote (h.remotes _ _ hmem) (h.tenants x hx)
    · obtain ⟨ho, hne⟩ := (hrooted o).mp ho
      have hx : x ∈ g.remotesOf o := by cases o <;> exact hx
      have hr := h.remotes o x hx
      refine ⟨.inr ⟨o, ho, hx⟩, ?_, fun hmem => hne ?_⟩
      · rintro rfl
        exact not_isTenant_of_isRemote hr ht
      · exact (h.owner_of_mem hr hmem).symm
  · rintro ⟨hx | ⟨o, ho, hx⟩, hne, hno⟩
    · exact .inl (List.mem_filter.mpr ⟨hx, decide_eq_true hne⟩)
    · refine .inr ⟨o, (hrooted o).mpr ⟨ho, ?_⟩, by cases o <;> exact hx⟩
      rintro rfl
      exact hno hx

theorem sublist_remove_tenant (ht : g.IsTenant id) :
    (g.apply (.remove id)).allParties.Sublist g.allParties := by
  rw [apply_remove_tenant ht]
  exact (List.Sublist.refl _).append (List.filter_sublist.flatMap _)

theorem remotesOf_clear (g : Graph) (id : PartyId) (o : PartyRef) :
    (g.apply (.clear id)).remotesOf o = if o = .owned id then [] else g.remotesOf o := by
  rw [apply_clear]
  split
  · next ho =>
    subst ho
    exact remotesOf_modifyRemotes_same (.inl rfl)
  · next ho => exact remotesOf_modifyRemotes_of_ne ho

theorem Sound.clear (h : g.Sound) (id : PartyId) : (g.apply (.clear id)).Sound := by
  refine h.mono (fun i _ => origin?_clear g id i) (fun o r hmem => .inl ?_)
    fun t hmem => .inl hmem
  rw [remotesOf_clear] at hmem
  split at hmem
  · cases hmem
  · exact hmem

/-- The list of a tenant domain outside of the graph does not matter. -/
theorem allParties_clear (hid : id ∉ g.tenants) :
    (g.apply (.clear id)).allParties = g.allParties := by
  refine allParties_congr rfl fun o ho => ?_
  rw [remotesOf_clear, if_neg]
  rintro rfl
  exact hid ho

end Remove

/-! ### Room for names -/

/-- Whether the names in use and those of `ids` are pairwise distinct. -/
def Room (g : Graph) (ids : List PartyId) : Prop := (g.keys ++ ids.map g.key).Nodup

namespace Room

variable {ids' : List PartyId}

theorem iff_nodup : g.Room ids ↔
    (g.root.fullName.key :: (g.allParties ++ ids).map g.key).Nodup := by
  rw [Room, keys, List.map_append, List.cons_append]

theorem keys_nodup (h : g.Room ids) : g.keys.Nodup := h.of_append_left

/-- What there is room for is not in the graph, and is not named twice. -/
theorem not_mem (h : g.Room ids) : ids.Nodup ∧ ∀ id ∈ ids, id ∉ g.allParties := by
  obtain ⟨-, hids, hne⟩ := List.nodup_append.mp h
  refine ⟨hids.of_map _, fun id hid hmem => ?_⟩
  have hkey : g.key id ∈ g.keys := List.mem_cons_of_mem _ (List.mem_map_of_mem hmem)
  exact hne _ hkey _ (List.mem_map_of_mem hid) rfl

/-- Fewer names need less room, in whatever order they stand. -/
theorem mono (h : g.Room ids) (hroot : g'.root = g.root)
    (hsub : (g'.allParties ++ ids').Subperm (g.allParties ++ ids))
    (hkey : ∀ i ∈ g.allParties ++ ids, g'.key i = g.key i) : g'.Room ids' := by
  obtain ⟨l, hperm, hsub⟩ := hsub
  rw [iff_nodup, hroot]
  have hmap : l.map g'.key = l.map g.key :=
    List.map_congr_left fun i hi => hkey i (hsub.subset hi)
  have hnodup : (g.root.fullName.key :: l.map g.key).Nodup :=
    ((hsub.map g.key).cons_cons _).nodup (iff_nodup.mp h)
  rw [← hmap] at hnodup
  exact ((hperm.map g'.key).cons _).nodup_iff.mp hnodup

theorem alike (h : g.Room ids) (ha : Alike g g') : g'.Room ids :=
  h.mono ha.root (by rw [ha.allParties]) fun i _ => key_congr (ha.origin i)

theorem extend (h : g.Room ids) (he : Extends g g') (hs : g.Sound)
    (hids : ∀ id ∈ ids, id < g.parties.length) : g'.Room ids := by
  refine h.mono he.root (by rw [he.allParties hs]) fun id hid => key_congr (he.origin id ?_)
  exact (List.mem_append.mp hid).elim hs.lt (hids id)

/-- When the first of several parties is put into the graph, there is room for the others. -/
theorem insert_remote (h : g.Room (id :: ids)) (hr : g.IsRemote owner id)
    (hc : ∃ c, g.configuration? owner = some c) : (g.apply (.insert id)).Room ids := by
  refine h.mono (root_apply ..) ?_ fun i _ => key_congr (origin?_insert g id i)
  by_cases ho : g.Rooted owner
  · have := (perm_insert_remote hr hc ho (nodup_tenants h.keys_nodup)).append_right ids
    exact (this.trans List.perm_middle.symm).subperm
  · rw [allParties_insert_remote_of_not_rooted hr hc ho]
    exact ((List.Sublist.refl _).append (List.sublist_cons_self _ _)).subperm

theorem insert_tenant (h : g.Room (id :: g.remotesOf (.owned id) ++ ids)) (ht : g.IsTenant id) :
    (g.apply (.insert id)).Room ids := by
  refine h.mono (root_apply ..) ?_ fun i _ => key_congr (origin?_insert g id i)
  rw [allParties_insert_tenant ht, List.append_assoc]

theorem remove_remote (h : g.Room ids) (hs : g.Sound) (hr : g.IsRemote owner id) :
    (g.apply (.remove id)).Room ids := by
  refine h.mono (root_apply ..) ?_ fun i _ => key_congr (origin?_remove g id i)
  rw [allParties_remove_remote hs hr]
  exact (List.filter_sublist.append (List.Sublist.refl _)).subperm

theorem remove_tenant (h : g.Room ids) (ht : g.IsTenant id) : (g.apply (.remove id)).Room ids :=
  h.mono (root_apply ..) ((sublist_remove_tenant ht).append (List.Sublist.refl _)).subperm
    fun i _ => key_congr (origin?_remove g id i)

theorem clear (h : g.Room ids) (hid : id ∉ g.tenants) : (g.apply (.clear id)).Room ids :=
  h.mono (root_apply ..) (by rw [allParties_clear hid])
    fun i _ => key_congr (origin?_clear g id i)

end Room

/-! ### Parties that leave for good -/

/-- The graph when a party has left it. A tenant domain loses its remote parties after that. -/
def without (g : Graph) (id : PartyId) (p : OwnedParty) : Graph :=
  if p.isTenant then (g.apply (.remove id)).apply (.clear id) else g.apply (.remove id)

section Without

variable {p : OwnedParty}

theorem without_remote (hno : p.isTenant = false) : g.without id p = g.apply (.remove id) :=
  if_neg (by simp [hno])

theorem without_tenant (hyes : p.isTenant = true) :
    g.without id p = (g.apply (.remove id)).apply (.clear id) :=
  if_pos hyes

theorem not_mem_remove_tenant (ht : g.IsTenant id) : id ∉ (g.apply (.remove id)).tenants := by
  rw [apply_remove_tenant ht]
  simp

theorem root_without : (g.without id p).root = g.root := by
  rw [without]
  split
  · exact (root_apply ..).trans (root_apply ..)
  · exact root_apply ..

theorem length_without : (g.without id p).parties.length = g.parties.length := by
  rw [without]
  split
  · exact (length_apply _ (by simp)).trans (length_apply _ (by simp))
  · exact length_apply _ (by simp)

theorem origin?_without (i : PartyId) : (g.without id p).origin? i = g.origin? i := by
  rw [without]
  split <;> simp

/-- A list stays as it is when the party that leaves is neither in it nor its owner. -/
theorem remotesOf_without (h : g.Sound) (hp : g.party? id = some p) {o : PartyRef}
    (ho : o ≠ .owned id) (hid : id ∉ g.remotesOf o) :
    (g.without id p).remotesOf o = g.remotesOf o := by
  cases hk : p.isTenant with
  | true =>
    rw [without_tenant hk, remotesOf_clear, if_neg ho,
      apply_remove_tenant (isTenant_of_party? hp hk)]
    cases o <;> rfl
  | false =>
    rw [without_remote hk, remotesOf_remove_remote h (isRemote_of_party? hp hk)]
    refine List.filter_eq_self.mpr fun r hr => decide_eq_true ?_
    rintro rfl
    exact hid hr

theorem Sound.without (h : g.Sound) (hp : g.party? id = some p) : (g.without id p).Sound := by
  cases hk : p.isTenant with
  | true =>
    rw [without_tenant hk]
    exact (h.remove_tenant (isTenant_of_party? hp hk)).clear id
  | false =>
    rw [without_remote hk]
    exact h.remove_remote (isRemote_of_party? hp hk)

theorem Room.without (h : g.Room ids) (hs : g.Sound) (hp : g.party? id = some p) :
    (g.without id p).Room ids := by
  cases hk : p.isTenant with
  | true =>
    have ht := isTenant_of_party? hp hk
    rw [without_tenant hk]
    exact (h.remove_tenant ht).clear (not_mem_remove_tenant ht)
  | false =>
    rw [without_remote hk]
    exact h.remove_remote hs (isRemote_of_party? hp hk)

end Without

end Graph

end PartyGraph
