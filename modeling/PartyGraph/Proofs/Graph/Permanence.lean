import PartyGraph.Proofs.Graph.Declarations
import PartyGraph.Proofs.Graph.Fate

/-!
# Parties that were there in the beginning

A graph begins with the parties of a configuration, and those that are made later have greater
numbers. A change that concerns none but later parties leaves the others in their lists, at the
front and in the same order (`Headed`), and it does not touch them.

When a tenant domain is destroyed, nobody looks at whether those in its list are dynamic. It is
enough that the list of a later tenant domain has later parties only, and that this stays so.

## Main definitions

* `Headed`: a list with later parties behind those that it had.
* `GraphChange.Later`: changes that concern later parties alone.
* `Graph.Permanent`: what is left of the beginning.

## Main results

* `Graph.Permanent.apply`: such a change keeps it.
* `Graph.permanent_ofResolved`, `Graph.mem_siblings_ofResolved`: the beginning.
* `Graph.Permanent.mem_siblings`: everyone is still in the list of the owner.
-/

namespace PartyGraph

/-! ### Lists with the same front -/

/-- Whether a list is what it was before, with parties with numbers from `n` on behind. -/
def Headed (n : Nat) (before now : List PartyId) : Prop :=
  ∃ later, now = before ++ later ∧ ∀ id ∈ later, n ≤ id

/-- What becomes of a list when parties with numbers from `n` on come and go. -/
inductive Shift (n : Nat) (l : List PartyId) : List PartyId → Prop
  | same : Shift n l l
  | added {id : PartyId} (h : n ≤ id) : Shift n l (l ++ [id])
  | removed {id : PartyId} (h : n ≤ id) : Shift n l (l.filter (· ≠ id))

section Lists

variable {n : Nat} {before l l' : List PartyId}

theorem Headed.refl (n : Nat) (l : List PartyId) : Headed n l l :=
  ⟨[], (List.append_nil l).symm, by simp⟩

theorem Headed.shift (h : Headed n before l) (hbefore : ∀ id ∈ before, id < n)
    (hs : Shift n l l') : Headed n before l' := by
  obtain ⟨later, rfl, hlater⟩ := h
  cases hs with
  | same => exact ⟨later, rfl, hlater⟩
  | @added id hid =>
    refine ⟨later ++ [id], List.append_assoc .., List.forall_mem_append.mpr ⟨hlater, ?_⟩⟩
    simpa using hid
  | @removed id hid =>
    have stays : before.filter (· ≠ id) = before :=
      List.filter_eq_self.mpr fun x hx =>
        decide_eq_true (Nat.ne_of_lt (Nat.lt_of_lt_of_le (hbefore x hx) hid))
    refine ⟨later.filter (· ≠ id), ?_, fun x hx => hlater x (List.mem_of_mem_filter hx)⟩
    rw [List.filter_append, stays]

theorem Shift.later (hs : Shift n l l') (h : ∀ id ∈ l, n ≤ id) : ∀ id ∈ l', n ≤ id := by
  cases hs with
  | same => exact h
  | added hid => exact List.forall_mem_append.mpr ⟨h, by simpa using hid⟩
  | removed _ => exact fun x hx => h x (List.mem_of_mem_filter hx)

end Lists

/-! ### Changes that concern later parties -/

/-- Whether a party is as it may be made later: dynamic, alive and with later parties in its
list. -/
structure OwnedParty.Late (p : OwnedParty) (n : Nat) : Prop where
  dynamic : p.dynamic = true
  alive : p.destroyState = .alive
  remotes : ∀ r ∈ p.remotes, n ≤ r

/-- Whether a change concerns none but parties with numbers from `n` on. A feature may be attached
to anyone. -/
def GraphChange.Later (n : Nat) : GraphChange → Prop
  | .make ps => ∀ p ∈ ps, p.Late n
  | .insert id | .remove id | .clear id | .doom id | .complete id => n ≤ id
  | .attach _ _ _ => True

theorem Draft.late_make {root c : PartyConfiguration} {owner : PartyRef} {first : PartyId}
    {ps : Parties} {n : Nat} (hn : n ≤ first) :
    ∀ p ∈ (make root owner c true first ps).parties, p.Late n := by
  intro p hp
  obtain ⟨c, o, oc, rs, rfl, hrs⟩ := exists_of_mem_make hp
  exact ⟨rfl, rfl, fun r hr => Nat.le_trans hn (hrs r hr)⟩

namespace Graph

variable {g₀ g : Graph} {c : GraphChange} {n : Nat} {id t : PartyId} {o : PartyRef}

theorem shift_tenants (g : Graph) (hc : c.Later n) : Shift n g.tenants (g.apply c).tenants := by
  cases c with
  | insert id =>
    rcases g.tenants_modifySiblings id (· ++ [id]) with heq | ⟨-, heq⟩
    · exact heq ▸ .same
    · exact heq ▸ .added hc
  | remove id =>
    rcases g.tenants_modifySiblings id (·.filter (· ≠ id)) with heq | ⟨-, heq⟩
    · exact heq ▸ .same
    · exact heq ▸ .removed hc
  | make | clear | complete => exact .same
  | doom id => exact (alike_doom g id).tenants ▸ .same
  | attach p type value => exact (alike_attach g p type value).tenants ▸ .same

/-- The list of remote parties of an owner, unless it is emptied. -/
theorem shift_remotesOf (hc : c.Later n) (ho : ∀ t, o = .owned t → t < g.parties.length)
    (hclear : ∀ t, o = .owned t → c ≠ .clear t) :
    Shift n (g.remotesOf o) ((g.apply c).remotesOf o) := by
  have configured : ∃ c, g.configuration? o = some c := by
    cases o with
    | root => exact ⟨g.root, rfl⟩
    | owned t => exact configured_of_lt (ho t rfl)
  cases c with
  | make ps => exact (extends_make g ps).remotesOf o ho ▸ .same
  | insert id =>
    rcases g.remotesOf_modifySiblings id (.inr configured) with heq | ⟨-, heq⟩
    · exact heq ▸ .same
    · exact heq ▸ .added hc
  | remove id =>
    rcases g.remotesOf_modifySiblings id (f := (·.filter (· ≠ id))) (.inl rfl) with heq | ⟨-, heq⟩
    · exact heq ▸ .same
    · exact heq ▸ .removed hc
  | clear id =>
    rw [remotesOf_clear, if_neg]
    · exact .same
    · rintro rfl
      exact hclear id rfl rfl
  | doom id => exact (alike_doom g id).remotesOf o ▸ .same
  | complete id => exact (alike_complete g id).remotesOf o ▸ .same
  | attach p type value => exact (alike_attach g p type value).remotesOf o ▸ .same

/-- Later parties come into a list that has later parties only. -/
theorem later_apply (hc : c.Later n) (h : ∀ r ∈ g.remotesOf (.owned t), n ≤ r) :
    ∀ r ∈ (g.apply c).remotesOf (.owned t), n ≤ r := by
  by_cases hclear : c = .clear t
  · subst hclear
    rw [remotesOf_clear, if_pos rfl]
    simp
  rcases Nat.lt_or_ge t g.parties.length with hlt | hle
  · refine (shift_remotesOf hc ?_ ?_).later h
    · rintro _ ⟨⟩
      exact hlt
    · rintro _ ⟨⟩
      exact hclear
  · intro r hr
    cases hp : (g.apply c).party? t with
    | none => simp [remotesOf, hp] at hr
    | some p =>
      rw [remotesOf, hp] at hr
      obtain ⟨q, hq, -⟩ | ⟨ps, rfl, hmem, -⟩ := OwnedParty.fixed_dynamic.of_apply hp
      · exact absurd (List.getElem?_eq_some_iff.mp hq).1 (Nat.not_lt.mpr hle)
      · exact (hc p hmem).remotes r hr

/-! ### The list of the owner -/

theorem siblings_of_isTenant (h : g.IsTenant id) : g.siblings id = g.tenants := by
  obtain ⟨p, hp, hyes⟩ := h.party?
  simp [siblings, hp, hyes]

theorem siblings_of_isRemote (h : g.IsRemote o id) : g.siblings id = g.remotesOf o := by
  obtain ⟨p, hp, rfl, hno⟩ := h.party?
  simp [siblings, hp, hno]

/-! ### What is left of the beginning -/

/-- What is left in `g` of the graph `g₀` that it once was: the parties of `g₀` are those that are
not dynamic. They are what they were, none of them is being destroyed, and they stand in the same
lists at the front and in the same order. None of them is in the list of a later tenant domain. -/
structure Permanent (g₀ g : Graph) : Prop where
  length : g₀.parties.length ≤ g.parties.length
  dynamic : ∀ id p, g.party? id = some p → p.dynamic = decide (g₀.parties.length ≤ id)
  origin : ∀ id < g₀.parties.length, g.origin? id = g₀.origin? id
  unharmed : ∀ id < g₀.parties.length, g.isDestroyed id = false
  tenants : Headed g₀.parties.length g₀.tenants g.tenants
  remotes : ∀ o, (∀ t, o = .owned t → t < g₀.parties.length) →
    Headed g₀.parties.length (g₀.remotesOf o) (g.remotesOf o)
  later : ∀ t, g₀.parties.length ≤ t → ∀ r ∈ g.remotesOf (.owned t), g₀.parties.length ≤ r

namespace Permanent

/-- A change that concerns later parties alone. -/
theorem apply (h : Permanent g₀ g) (hs : g₀.Sound) (hc : c.Later g₀.parties.length) :
    Permanent g₀ (g.apply c) := by
  have grows : g.parties.length ≤ (g.apply c).parties.length := by
    have longer := declarations_prefix g c
    rw [← length_declarations, ← length_declarations]
    exact longer.length_le
  have alive (ps : List OwnedParty) (hps : c = .make ps) : ∀ p ∈ ps, p.destroyState = .alive := by
    subst hps
    exact fun p hp => (hc p hp).alive
  constructor
  case length => exact Nat.le_trans h.length grows
  case dynamic =>
    intro id p hp
    obtain ⟨q, hq, hd⟩ | ⟨ps, rfl, hmem, hle⟩ := OwnedParty.fixed_dynamic.of_apply hp
    · exact hd ▸ h.dynamic id q hq
    · rw [(hc p hmem).dynamic]
      exact (decide_eq_true (Nat.le_trans h.length hle)).symm
  case origin =>
    intro id hid
    rw [← h.origin id hid]
    exact origin?_apply_of_lt g c (Nat.lt_of_lt_of_le hid h.length)
  case unharmed =>
    refine fun id hid => Bool.eq_false_iff.mpr fun hmarked => ?_
    rcases isDestroyed_of_apply alive hmarked with hbefore | rfl | ⟨i, rfl, rfl | hr⟩
    · exact absurd (hbefore.symm.trans (h.unharmed id hid)) (by simp)
    · exact Nat.not_le.mpr hid hc
    · exact Nat.not_le.mpr hid hc
    · exact Nat.not_le.mpr hid (h.later i hc id hr)
  case tenants => exact h.tenants.shift (fun t ht => (hs.tenants t ht).lt) (shift_tenants g hc)
  case remotes =>
    refine fun o ho => (h.remotes o ho).shift (fun r hr => (hs.remotes o r hr).lt) ?_
    refine shift_remotesOf hc (fun t ht => Nat.lt_of_lt_of_le (ho t ht) h.length) ?_
    rintro t ht rfl
    exact Nat.not_le.mpr (ho t ht) hc
  case later => exact fun t ht => later_apply hc (h.later t ht)

/-- Who was in a list in the beginning is in the list of the same owner. -/
theorem mem_siblings (h : Permanent g₀ g) (hid : id ∈ g₀.siblings id) :
    id ∈ g.siblings id := by
  have stays {before now : List PartyId} (hheaded : Headed g₀.parties.length before now)
      (hmem : id ∈ before) : id ∈ now := by
    obtain ⟨later, rfl, -⟩ := hheaded
    exact List.mem_append_left _ hmem
  cases hp : g₀.party? id with
  | none => simp [siblings, hp] at hid
  | some p =>
    have hlt : id < g₀.parties.length := (List.getElem?_eq_some_iff.mp hp).1
    cases hk : p.isTenant with
    | true =>
      have ht := isTenant_of_party? hp hk
      rw [siblings_of_isTenant ht] at hid
      rw [siblings_of_isTenant (ht.congr (h.origin id hlt))]
      exact stays h.tenants hid
    | false =>
      have hr := isRemote_of_party? hp hk
      rw [siblings_of_isRemote hr] at hid
      rw [siblings_of_isRemote (hr.congr (h.origin id hlt))]
      exact stays (h.remotes p.owner fun t ht => lt_of_mem_remotesOf (ht ▸ hid)) hid

end Permanent

/-! ### The beginning -/

theorem permanent_ofResolved (r : ResolvedRoot) : Permanent (ofResolved r) (ofResolved r) where
  length := Nat.le_refl _
  dynamic id p hp := by
    have hlt : id < (ofResolved r).parties.length := (List.getElem?_eq_some_iff.mp hp).1
    obtain ⟨c, o, oc, rs, rfl, -⟩ := Draft.exists_of_mem_make (List.mem_of_getElem? hp)
    exact (decide_eq_false (Nat.not_le.mpr hlt)).symm
  origin _ _ := rfl
  unharmed _ _ := isDestroyed_ofResolved r
  tenants := .refl _ _
  remotes _ _ := .refl _ _
  later t ht := by simp [remotesOf_of_le ht]

/-- All parties of a configuration are in the graph that it describes. -/
theorem mem_siblings_ofResolved {r : ResolvedRoot} (hp : r.parties.Proper)
    (hid : id < (ofResolved r).parties.length) : id ∈ (ofResolved r).siblings id := by
  have hs := sound_ofResolved hp
  have hmem : id ∈ (ofResolved r).allParties := by
    rw [show (ofResolved r).allParties = _ from (drafted_ofResolved r).family]
    exact List.mem_range'_1.mpr ⟨Nat.zero_le _, by rwa [Nat.zero_add]⟩
  rcases mem_allParties.mp hmem with ht | ⟨o, -, hr⟩
  · rwa [siblings_of_isTenant (hs.tenants id ht)]
  · rwa [siblings_of_isRemote (hs.remotes o id hr)]

end Graph

end PartyGraph
