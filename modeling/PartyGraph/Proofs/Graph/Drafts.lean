import Mathlib.Data.List.Forall2
import PartyGraph.Graph.Draft
import PartyGraph.Proofs.Graph.Membership
import PartyGraph.Proofs.Section.Distinct

/-!
# Parties made from configurations

Parties that are made together stand at consecutive numbers. `Graph.Made` relates the numbers of
those that the owner will own to the configurations that they were made from: each remote party and
each tenant domain has the configuration at its place, and the list of a tenant domain has exactly
the remote parties declared in it, although the domain itself is not in the graph yet.

The family of a draft is all that was made, in the order of the configurations, and that is the
order of the numbers too (`Graph.Drafted`). So two drafts made one after the other have nothing
in common.

## Main definitions

* `Graph.Made`: parties and the configurations that they were made from.
* `Graph.family`: remote parties, and tenant domains each followed by its own.
* `Graph.Holds`: what the graph knows of consecutive numbers.
* `Graph.Drafted`: what it knows of the parties of a draft.
* `Graph.OwnersFirst`: remote parties were made after the tenant domain that owns them.

## Main results

* `Graph.drafted_make`, `Graph.Sound.make`: the parties of a draft.
* `Graph.Made.keys`: their names.
* `Graph.sound_ofResolved`, `Graph.room_ofResolved`: the graph of a resolved tree.
-/

namespace PartyGraph

namespace Draft

/-! ### Parties as they are made -/

section Parties

variable {root c : PartyConfiguration} {owner : PartyRef} {dynamic : Bool} {first : PartyId}
  {p : OwnedParty}

theorem exists_of_mem_ofTenants {ts : List TenantConfiguration}
    (h : p ∈ (ofTenants root dynamic first ts).2) :
    ∃ c o oc rs, p = ofConfiguration c o oc dynamic rs ∧ ∀ r ∈ rs, first ≤ r := by
  induction ts generalizing first with
  | nil => cases h
  | cons t ts ih =>
    rcases List.mem_append.mp h with h | h
    · rcases List.mem_cons.mp h with rfl | h
      · refine ⟨_, _, _, _, rfl, fun r hr => ?_⟩
        exact Nat.le_trans (Nat.le_succ _) (List.mem_range'_1.mp hr).1
      · obtain ⟨c, -, rfl⟩ := List.mem_map.mp h
        exact ⟨_, _, _, _, rfl, by simp⟩
    · obtain ⟨c, o, oc, rs, rfl, hrs⟩ := ih h
      exact ⟨_, _, _, _, rfl, fun r hr => Nat.le_trans (by omega) (hrs r hr)⟩

/-- The parties of a draft are made from configurations, and own at most others of the draft. -/
theorem exists_of_mem_make {ps : Parties} (h : p ∈ (make root owner c dynamic first ps).parties) :
    ∃ c o oc rs, p = ofConfiguration c o oc dynamic rs ∧ ∀ r ∈ rs, first ≤ r := by
  rcases List.mem_append.mp h with h | h
  · obtain ⟨c, -, rfl⟩ := List.mem_map.mp h
    exact ⟨_, _, _, _, rfl, by simp⟩
  · obtain ⟨c, o, oc, rs, rfl, hrs⟩ := exists_of_mem_ofTenants h
    exact ⟨_, _, _, _, rfl, fun r hr => Nat.le_trans (Nat.le_add_right _ _) (hrs r hr)⟩

end Parties

/-! ### Numbers -/

variable (root : PartyConfiguration) (dynamic : Bool) (first : PartyId)

theorem length_ofTenant (t : TenantConfiguration) :
    (ofTenant root dynamic first t).length = t.remotes.length + 1 := by
  simp [ofTenant]

/-- The numbers of a tenant domain and of its remote parties come before those of the next. -/
theorem range'_ofTenants_cons (t : TenantConfiguration) (ts : List TenantConfiguration) :
    List.range' first (ofTenants root dynamic first (t :: ts)).2.length
      = first :: List.range' (first + 1) t.remotes.length ++
          List.range' (first + 1 + t.remotes.length)
            (ofTenants root dynamic (first + 1 + t.remotes.length) ts).2.length := by
  simp only [ofTenants, List.length_append, length_ofTenant]
  rw [List.cons_append, List.range'_append_1, ← List.range'_succ]
  congr 1
  omega

end Draft

namespace Graph

variable {g g' : Graph} {owner : PartyRef} {ids : List PartyId}

/-! ### Parties and configurations -/

/-- Whether a party was made as a remote party of an owner, from a configuration. -/
def MadeRemote (g : Graph) (owner : PartyRef) (id : PartyId) (c : PartyConfiguration) : Prop :=
  g.origin? id = some (c, owner)

/-- Whether a party was made as a tenant domain with certain remote parties, which are in its
list. -/
def MadeTenant (g : Graph) (id : PartyId) (t : TenantConfiguration) : Prop :=
  g.origin? id = some (t.party, .root) ∧
    List.Forall₂ (g.MadeRemote (.owned id)) (g.remotesOf (.owned id)) t.remotes

/-- Whether parties that an owner is to own were made from configurations, in the same order. -/
structure Made (g : Graph) (owner : PartyRef) (remotes tenants : List PartyId) (ps : Parties) :
    Prop where
  remotes : List.Forall₂ (g.MadeRemote owner) remotes ps.remotes
  tenants : List.Forall₂ g.MadeTenant tenants ps.tenants

/-- Remote parties, and tenant domains each followed by its own. -/
def family (g : Graph) (remotes tenants : List PartyId) : List PartyId :=
  remotes ++ tenants.flatMap fun t => t :: g.remotesOf (.owned t)

theorem forall₂_of_mem {α β : Type} {r r' : α → β → Prop} {as : List α} {bs : List β}
    (h : List.Forall₂ r as bs) (hrr' : ∀ a ∈ as, ∀ b, r a b → r' a b) : List.Forall₂ r' as bs := by
  induction h with
  | nil => exact .nil
  | cons hab _ ih =>
    rw [List.forall_mem_cons] at hrr'
    exact .cons (hrr'.1 _ hab) (ih hrr'.2)

theorem isRemote_of_made {ids : List PartyId} {cs : List PartyConfiguration}
    (h : List.Forall₂ (g.MadeRemote owner) ids cs) (hk : ∀ c ∈ cs, c.kind = .remote) :
    ∀ id ∈ ids, g.IsRemote owner id := by
  induction h with
  | nil => simp
  | cons hc _ ih =>
    rw [List.forall_mem_cons] at hk ⊢
    exact ⟨⟨_, hc, by simp [hk.1]⟩, ih hk.2⟩

theorem isTenant_of_made {ids : List PartyId} {ts : List TenantConfiguration}
    (h : List.Forall₂ g.MadeTenant ids ts)
    (hk : ∀ t ∈ ts, t.party.kind = .tenantDomain ∧ ∀ c ∈ t.remotes, c.kind = .remote) :
    ∀ id ∈ ids, g.IsTenant id ∧ ∀ r ∈ g.remotesOf (.owned id), g.IsRemote (.owned id) r := by
  induction h with
  | nil => simp
  | cons hc _ ih =>
    rw [List.forall_mem_cons] at hk ⊢
    exact ⟨⟨⟨_, _, hc.1, hk.1.1⟩, isRemote_of_made hc.2 hk.1.2⟩, ih hk.2⟩

namespace Made

variable {remotes tenants : List PartyId} {ps : Parties}

theorem isRemote (h : g.Made owner remotes tenants ps) (hp : ps.Proper) :
    ∀ id ∈ remotes, g.IsRemote owner id :=
  isRemote_of_made h.remotes hp.remotes

theorem isTenant (h : g.Made owner remotes tenants ps) (hp : ps.Proper) :
    ∀ id ∈ tenants, g.IsTenant id := fun id hid =>
  (isTenant_of_made h.tenants hp.tenants id hid).1

theorem key_eq {id : PartyId} {c : PartyConfiguration} (h : g.MadeRemote owner id c) :
    g.key id = c.fullName.key := by
  obtain ⟨p, hp, hpc⟩ := Option.map_eq_some_iff.mp h
  simp only [Prod.mk.injEq] at hpc
  simp [key, name?, configuration?, hp, hpc.1]

theorem keys_eq {ids : List PartyId} {cs : List PartyConfiguration}
    (h : List.Forall₂ (g.MadeRemote owner) ids cs) :
    ids.map g.key = cs.map (·.fullName.key) := by
  induction h with
  | nil => rfl
  | cons hc _ ih => rw [List.map_cons, List.map_cons, ih, key_eq hc]

/-- The names of a family are those of the configurations. -/
theorem keys (h : g.Made owner remotes tenants ps) :
    (g.family remotes tenants).map g.key = ps.keys := by
  have tenants {ids : List PartyId} {ts : List TenantConfiguration}
      (h : List.Forall₂ g.MadeTenant ids ts) :
      (ids.flatMap fun t => t :: g.remotesOf (.owned t)).map g.key
        = (ts.flatMap fun t => t.party :: t.remotes).map (·.fullName.key) := by
    induction h with
    | nil => rfl
    | @cons id t _ _ hc _ ih =>
      have hid : g.key id = t.party.fullName.key := by
        exact key_eq hc.1
      simp only [List.flatMap_cons, List.map_append, List.map_cons, ih, keys_eq hc.2, hid]
  rw [family, Parties.keys, Parties.all, List.map_append, List.map_append, keys_eq h.remotes,
    tenants h.tenants]

/-- The relation depends on the origins of the family and on the lists of its tenant domains. -/
theorem congr (h : g.Made owner remotes tenants ps)
    (ho : ∀ id ∈ g.family remotes tenants, g'.origin? id = g.origin? id)
    (hr : ∀ t ∈ tenants, g'.remotesOf (.owned t) = g.remotesOf (.owned t)) :
    g'.Made owner remotes tenants ps where
  remotes := forall₂_of_mem h.remotes fun id hid c hc =>
    (ho id (List.mem_append_left _ hid)).trans hc
  tenants := by
    refine forall₂_of_mem h.tenants fun t ht c hc => ?_
    have hmem {id : PartyId} (hid : id ∈ t :: g.remotesOf (.owned t)) :
        id ∈ g.family remotes tenants :=
      List.mem_append_right _ (List.mem_flatMap.mpr ⟨t, ht, hid⟩)
    refine ⟨(ho t (hmem List.mem_cons_self)).trans hc.1, ?_⟩
    rw [hr t ht]
    exact forall₂_of_mem hc.2 fun r hr' c' hc' =>
      (ho r (hmem (List.mem_cons_of_mem _ hr'))).trans hc'

end Made

theorem family_congr {remotes tenants : List PartyId}
    (hr : ∀ t ∈ tenants, g'.remotesOf (.owned t) = g.remotesOf (.owned t)) :
    g'.family remotes tenants = g.family remotes tenants := by
  rw [family, family]
  congr 1
  exact List.flatMap_congr fun t ht => by rw [hr t ht]

/-! ### Consecutive numbers -/

/-- Whether the parties with numbers from `first` on are those of a list. -/
def Holds (g : Graph) (first : PartyId) (ps : List OwnedParty) : Prop :=
  ∀ i < ps.length, g.party? (first + i) = ps[i]?

namespace Holds

variable {first : PartyId}

theorem make (g : Graph) (ps : List OwnedParty) :
    (g.apply (.make ps)).Holds g.parties.length ps := by
  intro i _
  show (g.parties ++ ps)[g.parties.length + i]? = ps[i]?
  rw [List.getElem?_append_right (Nat.le_add_right _ _), Nat.add_sub_cancel_left]

theorem left {ps qs : List OwnedParty} (h : g.Holds first (ps ++ qs)) : g.Holds first ps := by
  intro i hi
  rw [h i (by rw [List.length_append]; omega), List.getElem?_append_left hi]

theorem right {ps qs : List OwnedParty} (h : g.Holds first (ps ++ qs)) :
    g.Holds (first + ps.length) qs := by
  intro i hi
  rw [Nat.add_assoc, h (ps.length + i) (by rw [List.length_append]; omega),
    List.getElem?_append_right (Nat.le_add_right _ _), Nat.add_sub_cancel_left]

theorem head {p : OwnedParty} {ps : List OwnedParty} (h : g.Holds first (p :: ps)) :
    g.party? first = some p := by
  simpa using h 0 (by simp)

theorem tail {p : OwnedParty} {ps : List OwnedParty} (h : g.Holds first (p :: ps)) :
    g.Holds (first + 1) ps :=
  @right g first [p] ps h

/-- Remote parties made one after the other. -/
theorem remotes {ownerConfiguration : PartyConfiguration} {dynamic : Bool}
    {cs : List PartyConfiguration}
    (h : g.Holds first
      (cs.map fun c => Draft.ofConfiguration c owner ownerConfiguration dynamic [])) :
    List.Forall₂ (g.MadeRemote owner) (List.range' first cs.length) cs ∧
      ∀ id ∈ List.range' first cs.length, g.remotesOf (.owned id) = [] := by
  induction cs generalizing first with
  | nil => exact ⟨.nil, by simp⟩
  | cons c cs ih =>
    obtain ⟨hmade, hempty⟩ := ih h.tail
    have hhead : g.party? first = some (Draft.ofConfiguration c owner ownerConfiguration dynamic [])
      := h.head
    rw [List.length_cons, List.range'_succ]
    refine ⟨.cons (origin?_of_party? hhead) hmade, List.forall_mem_cons.mpr ⟨?_, hempty⟩⟩
    simp [remotesOf, hhead, Draft.ofConfiguration]

/-- Tenant domains made one after the other, each followed by its remote parties. -/
theorem tenants {root : PartyConfiguration} {dynamic : Bool} {ts : List TenantConfiguration}
    (h : g.Holds first (Draft.ofTenants root dynamic first ts).2) :
    List.Forall₂ g.MadeTenant (Draft.ofTenants root dynamic first ts).1 ts ∧
      g.family [] (Draft.ofTenants root dynamic first ts).1
        = List.range' first (Draft.ofTenants root dynamic first ts).2.length ∧
      ∀ id ∈ List.range' first (Draft.ofTenants root dynamic first ts).2.length,
        id ∈ (Draft.ofTenants root dynamic first ts).1 ∨ g.remotesOf (.owned id) = [] := by
  induction ts generalizing first with
  | nil => exact ⟨.nil, rfl, by simp [Draft.ofTenants]⟩
  | cons t ts ih =>
    have hfirst : g.Holds first (Draft.ofTenant root dynamic first t) := left h
    have hrest : g.Holds (first + 1 + t.remotes.length)
        (Draft.ofTenants root dynamic (first + 1 + t.remotes.length) ts).2 := by
      have := right h
      rwa [Draft.length_ofTenant, ← Nat.add_assoc, Nat.add_right_comm] at this
    obtain ⟨hmade, hfamily, hlists⟩ := ih hrest
    obtain ⟨hremotes, hempty⟩ := hfirst.tail.remotes
    have hhead := hfirst.head
    have hown : g.remotesOf (.owned first) = List.range' (first + 1) t.remotes.length := by
      simp [remotesOf, hhead, Draft.ofConfiguration]
    have hrange := Draft.range'_ofTenants_cons root dynamic first t ts
    refine ⟨.cons ⟨origin?_of_party? hhead, hown ▸ hremotes⟩ hmade, ?_, ?_⟩
    · rw [hrange, ← hfamily, ← hown]
      rfl
    · intro id hid
      rw [hrange] at hid
      rcases List.mem_append.mp hid with hid | hid
      · rcases List.mem_cons.mp hid with rfl | hid
        · exact .inl List.mem_cons_self
        · exact .inr (hempty id hid)
      · exact (hlists id hid).imp_left (List.mem_cons_of_mem _)

end Holds

/-! ### Drafts -/

/-- What holds of a graph that has the parties of a draft with numbers from `first` on. -/
structure Drafted (g : Graph) (owner : PartyRef) (first : PartyId) (d : Draft) (ps : Parties) :
    Prop where
  made : g.Made owner d.remotes d.tenants ps
  family : g.family d.remotes d.tenants = List.range' first d.parties.length
  lists : ∀ id ∈ List.range' first d.parties.length,
    id ∈ d.tenants ∨ g.remotesOf (.owned id) = []

theorem Holds.drafted {root ownerConfiguration : PartyConfiguration} {dynamic : Bool}
    {first : PartyId} {ps : Parties}
    (h : g.Holds first (Draft.make root owner ownerConfiguration dynamic first ps).parties) :
    g.Drafted owner first (Draft.make root owner ownerConfiguration dynamic first ps) ps := by
  obtain ⟨hremotes, hempty⟩ := h.left.remotes
  have htenants := h.right.tenants
  simp only [List.length_map] at htenants
  obtain ⟨hmade, hfamily, hlists⟩ := htenants
  let others := (Draft.ofTenants root dynamic (first + ps.remotes.length) ps.tenants).2
  have hd : Draft.make root owner ownerConfiguration dynamic first ps
      = ⟨List.range' first ps.remotes.length,
          (Draft.ofTenants root dynamic (first + ps.remotes.length) ps.tenants).1,
          ps.remotes.map (fun c => Draft.ofConfiguration c owner ownerConfiguration dynamic [])
            ++ others⟩ := by
    simp [Draft.make, others]
  have hrange : List.range' first (ps.remotes.map (fun c =>
        Draft.ofConfiguration c owner ownerConfiguration dynamic []) ++ others).length
      = List.range' first ps.remotes.length
        ++ List.range' (first + ps.remotes.length) others.length := by
    rw [List.length_append, List.length_map, List.range'_append_1]
  rw [hd]
  refine ⟨⟨hremotes, hmade⟩, ?_, fun id hid => ?_⟩
  · rw [hrange, ← hfamily]
    rfl
  · rw [hrange] at hid
    exact (List.mem_append.mp hid).elim (fun hid => .inr (hempty id hid)) (hlists id)

/-- New lists are sound, so that a graph is sound when its parties are those of a sound graph and
those of a draft. -/
theorem Drafted.sound_list {first : PartyId} {d : Draft} {ps : Parties}
    (h : g.Drafted owner first d ps) (hp : ps.Proper) {id : PartyId}
    (hid : id ∈ List.range' first d.parties.length) :
    ∀ r ∈ g.remotesOf (.owned id), g.IsRemote (.owned id) r := by
  rcases h.lists id hid with hid | hempty
  · exact (isTenant_of_made h.made.tenants hp.tenants id hid).2
  · simp [hempty]

theorem drafted_make {c : PartyConfiguration} {dynamic : Bool} {ps : Parties} {d : Draft}
    (hd : d = Draft.make g.root owner c dynamic g.parties.length ps) :
    (g.apply (.make d.parties)).Drafted owner g.parties.length d ps := by
  subst hd
  exact (Holds.make g _).drafted

theorem Sound.make (h : g.Sound) {c : PartyConfiguration} {dynamic : Bool} {ps : Parties}
    {d : Draft} (hp : ps.Proper) (hd : d = Draft.make g.root owner c dynamic g.parties.length ps) :
    (g.apply (.make d.parties)).Sound := by
  have he := extends_make g d.parties
  refine h.mono he.origin (fun o r hmem => ?_) fun t ht => .inl ht
  by_cases ho : ∃ id, o = .owned id ∧ g.parties.length ≤ id
  · obtain ⟨id, rfl, hle⟩ := ho
    refine .inr ((drafted_make hd).sound_list hp ?_ r hmem)
    have hlt := lt_of_mem_remotesOf hmem
    rw [length_make] at hlt
    exact List.mem_range'_1.mpr ⟨hle, hlt⟩
  · refine .inl ?_
    rwa [he.remotesOf o fun id hid => Nat.lt_of_not_le fun hle => ho ⟨id, hid, hle⟩] at hmem

/-! ### Owners -/

/-- Whether every remote party was made after the tenant domain that owns it. -/
def OwnersFirst (g : Graph) : Prop := ∀ t r, g.IsRemote (.owned t) r → t < r

theorem OwnersFirst.congr (h : g.OwnersFirst)
    (ho : ∀ id, id < g'.parties.length → g'.origin? id = g.origin? id) : g'.OwnersFirst :=
  fun t r hr => h t r (hr.congr (ho r hr.lt).symm)

/-- In a family a tenant domain comes before its remote parties. -/
theorem lt_of_family {remotes tenants : List PartyId} {first n : Nat} {t r : PartyId}
    (h : g.family remotes tenants = List.range' first n) (ht : t ∈ tenants)
    (hr : r ∈ g.remotesOf (.owned t)) : t < r := by
  have hsub : (t :: g.remotesOf (.owned t)).Sublist (g.family remotes tenants) := by
    refine List.Sublist.trans ?_ (List.sublist_append_right _ _)
    exact List.sublist_flatten_of_mem (List.mem_map_of_mem ht)
  have hpair : (g.family remotes tenants).Pairwise (· < ·) := h ▸ List.pairwise_lt_range'
  exact List.rel_of_pairwise_cons (hpair.sublist hsub) hr

theorem Drafted.lt_of_isRemote {first : PartyId} {d : Draft} {ps : Parties} {t r : PartyId}
    (h : g.Drafted owner first d ps) (hp : ps.Proper) (howner : ∀ t, owner = .owned t → t < first)
    (hr : g.IsRemote (.owned t) r) (hmem : r ∈ List.range' first d.parties.length) : t < r := by
  have hfirst := (List.mem_range'_1.mp hmem).1
  have hfamily : r ∈ g.family d.remotes d.tenants := h.family ▸ hmem
  rcases List.mem_append.mp hfamily with hmem | hmem
  · have := (h.made.isRemote hp r hmem).owner_unique hr
    exact Nat.lt_of_lt_of_le (howner t this) hfirst
  · obtain ⟨t', ht', hmem⟩ := List.mem_flatMap.mp hmem
    obtain ⟨htenant, hlist⟩ := isTenant_of_made h.made.tenants hp.tenants t' ht'
    rcases List.mem_cons.mp hmem with rfl | hmem
    · exact absurd htenant (not_isTenant_of_isRemote hr)
    · cases (hlist r hmem).owner_unique hr
      exact lt_of_family h.family ht' hmem

theorem OwnersFirst.make (h : g.OwnersFirst) {c : PartyConfiguration} {dynamic : Bool}
    {ps : Parties} {d : Draft} (hp : ps.Proper)
    (howner : ∀ t, owner = .owned t → t < g.parties.length)
    (hd : d = Draft.make g.root owner c dynamic g.parties.length ps) :
    (g.apply (.make d.parties)).OwnersFirst := by
  intro t r hr
  by_cases hold : r < g.parties.length
  · exact h t r (hr.congr ((extends_make g d.parties).origin r hold).symm)
  · refine (drafted_make hd).lt_of_isRemote hp howner hr ?_
    have hlt := hr.lt
    rw [length_make] at hlt
    exact List.mem_range'_1.mpr ⟨Nat.not_lt.mp hold, hlt⟩

/-! ### The graph of a resolved tree -/

theorem drafted_ofResolved (r : ResolvedRoot) :
    (ofResolved r).Drafted .root 0 (Draft.make r.root .root r.root false 0 r.parties) r.parties :=
  Holds.drafted fun i _ => by rw [Nat.zero_add]; rfl

theorem sound_ofResolved {r : ResolvedRoot} (hp : r.parties.Proper) : (ofResolved r).Sound := by
  have drafted := drafted_ofResolved r
  refine ⟨fun o x hmem => ?_, fun t ht => drafted.made.isTenant hp t ht⟩
  cases o with
  | root => exact drafted.made.isRemote hp x hmem
  | owned id =>
    refine drafted.sound_list hp (List.mem_range'_1.mpr ⟨Nat.zero_le _, ?_⟩) x hmem
    rw [Nat.zero_add]
    exact lt_of_mem_remotesOf hmem

theorem ownersFirst_ofResolved {r : ResolvedRoot} (hp : r.parties.Proper) :
    (ofResolved r).OwnersFirst := by
  intro t x hx
  refine (drafted_ofResolved r).lt_of_isRemote hp (by simp) hx ?_
  exact List.mem_range'_1.mpr ⟨Nat.zero_le _, (Nat.zero_add _).symm ▸ hx.lt⟩

theorem room_ofResolved {r : ResolvedRoot}
    (h : (r.root.fullName.key :: r.parties.keys).Nodup) : (ofResolved r).Room [] := by
  have : (ofResolved r).keys = r.root.fullName.key :: r.parties.keys := by
    rw [keys, ← (drafted_ofResolved r).made.keys]
    rfl
  rw [Room, this]
  simpa using h

end Graph

end PartyGraph
