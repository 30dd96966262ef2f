import Mathlib.Order.Nat
import PartyGraph.Proofs.Graph.Drafts

/-!
# What becomes of a party

A party is alive at first, then its destruction is requested, and at last it is destroyed. Of all
steps of the graph one requests a destruction and one completes it, and no step takes a party back
(`Graph.Forward`).

The state of a party says nothing of the lists, and a list may be one that is not in the graph
itself. So whether a party is in any list at all is a question of its own (`Graph.Listed`), and so
is whether a list has the same party twice (`Graph.Tidy`).

## Main definitions

* `Graph.state?`: the state of a party, in the order of `DestroyState.rank`.
* `Graph.Forward`: graphs between which no state goes back.
* `Graph.Listed`, `Graph.Tidy`: as above.

## Main results

* `Graph.forward_apply`: no step takes a party back.
* `Graph.isGone_apply`, `Graph.isGone_make`, `Graph.isGone_complete`: who is destroyed after a step.
* `Graph.isDestroyed_doom_iff`, `Graph.isDestroyed_of_apply`: whose destruction was requested.
* `Graph.listed_without_remote`, `Graph.listed_without_tenant`: who is in a list after a party has
  left.
-/

namespace PartyGraph

namespace DestroyState

/-- The place of a state in their order. -/
def rank : DestroyState → Nat
  | alive => 0
  | destroying => 1
  | destroyed => 2

instance : Preorder DestroyState := .lift rank

instance : DecidableLE DestroyState := fun d d' => inferInstanceAs (Decidable (d.rank ≤ d'.rank))

theorem alive_le (d : DestroyState) : alive ≤ d := Nat.zero_le d.rank

theorem le_destroyed (d : DestroyState) : d ≤ destroyed := by
  cases d <;> decide

end DestroyState

theorem OwnedParty.le_doomed (p : OwnedParty) : p.destroyState ≤ p.doomed.destroyState := by
  rw [OwnedParty.doomed]
  split
  · next h =>
    rw [h]
    exact DestroyState.alive_le _
  · exact le_refl _

namespace Graph

variable {g g' g'' : Graph} {id i : PartyId} {owner : PartyRef}

/-! ### States -/

/-- The state of a party. -/
def state? (g : Graph) (id : PartyId) : Option DestroyState := (g.party? id).map (·.destroyState)

theorem isGone_iff : g.isGone id = true ↔ g.state? id = some .destroyed := by
  cases h : g.party? id <;> simp [isGone, state?, h]

theorem isDestroyed_iff : g.isDestroyed id = true ↔ ∃ d, g.state? id = some d ∧ d ≠ .alive := by
  cases h : g.party? id <;> simp [isDestroyed, OwnedParty.isDestroyed, state?, h]

theorem isGone_congr (h : g'.state? id = g.state? id) : g'.isGone id = g.isGone id := by
  rw [Bool.eq_iff_iff, isGone_iff, isGone_iff, h]

theorem isDestroyed_congr (h : g'.state? id = g.state? id) :
    g'.isDestroyed id = g.isDestroyed id := by
  rw [Bool.eq_iff_iff, isDestroyed_iff, isDestroyed_iff, h]

theorem lt_of_state? {d : DestroyState} (h : g.state? id = some d) : id < g.parties.length := by
  obtain ⟨p, hp, -⟩ := Option.map_eq_some_iff.mp h
  exact (List.getElem?_eq_some_iff.mp hp).1

theorem lt_of_isGone (h : g.isGone id = true) : id < g.parties.length :=
  lt_of_state? (isGone_iff.mp h)

theorem lt_of_isDestroyed (h : g.isDestroyed id = true) : id < g.parties.length := by
  obtain ⟨d, hd, -⟩ := isDestroyed_iff.mp h
  exact lt_of_state? hd

theorem state?_modify (g : Graph) (id : PartyId) (f : OwnedParty → OwnedParty) (i : PartyId) :
    (g.modify id f).state? i
      = if id = i then (g.party? i).map fun p => (f p).destroyState else g.state? i := by
  rw [state?, party?_modify]
  split
  · rw [Option.map_map]
    rfl
  · rfl

theorem state?_modify_of_eq {f : OwnedParty → OwnedParty}
    (hf : ∀ p, (f p).destroyState = p.destroyState) : (g.modify id f).state? i = g.state? i := by
  rw [state?_modify]
  split
  · simp only [hf]
    rfl
  · rfl

theorem state?_modifyRemotes (owner : PartyRef) (f : List PartyId → List PartyId) :
    (g.modifyRemotes owner f).state? i = g.state? i := by
  cases owner with
  | root => rfl
  | owned id =>
    exact state?_modify_of_eq (f := fun p => { p with remotes := f p.remotes }) fun _ => rfl

theorem state?_modifySiblings (f : List PartyId → List PartyId) :
    (g.modifySiblings id f).state? i = g.state? i := by
  rw [modifySiblings]
  split
  · rfl
  · split
    · rfl
    · exact state?_modifyRemotes _ f

theorem state?_attach (p : PartyRef) (type value : String) :
    (g.apply (.attach p type value)).state? i = g.state? i := by
  cases p with
  | root => rfl
  | owned id =>
    exact state?_modify_of_eq (f := fun p => { p with features := p.features.with type value })
      fun _ => rfl

/-! ### No way back -/

/-- Whether no party of `g` has gone back in `g'`. -/
def Forward (g g' : Graph) : Prop :=
  ∀ id d, g.state? id = some d → ∃ d', g'.state? id = some d' ∧ d ≤ d'

namespace Forward

theorem of_eq (h : ∀ id, g'.state? id = g.state? id) : Forward g g' :=
  fun id d hd => ⟨d, (h id).trans hd, le_refl d⟩

theorem refl (g : Graph) : Forward g g := of_eq fun _ => rfl

theorem trans (h : Forward g g') (h' : Forward g' g'') : Forward g g'' := by
  intro id d hd
  obtain ⟨d', hd', hle⟩ := h id d hd
  obtain ⟨d'', hd'', hle'⟩ := h' id d' hd'
  exact ⟨d'', hd'', le_trans hle hle'⟩

theorem party? {p : OwnedParty} (h : Forward g g') (hp : g.party? id = some p) :
    ∃ p', g'.party? id = some p' ∧ p.destroyState ≤ p'.destroyState := by
  obtain ⟨d, hd, hle⟩ := h id p.destroyState (by simp [state?, hp])
  obtain ⟨p', hp', rfl⟩ := Option.map_eq_some_iff.mp hd
  exact ⟨p', hp', hle⟩

theorem isGone (h : Forward g g') (hid : g.isGone id = true) : g'.isGone id = true := by
  obtain ⟨d', hd', hle⟩ := h id _ (isGone_iff.mp hid)
  rw [isGone_iff, hd']
  cases d' with
  | destroyed => rfl
  | alive | destroying => exact absurd hle (by decide)

theorem isDestroyed (h : Forward g g') (hid : g.isDestroyed id = true) :
    g'.isDestroyed id = true := by
  obtain ⟨d, hd, hne⟩ := isDestroyed_iff.mp hid
  obtain ⟨d', hd', hle⟩ := h id d hd
  refine isDestroyed_iff.mpr ⟨d', hd', ?_⟩
  rintro rfl
  cases d with
  | alive => exact hne rfl
  | destroying | destroyed => exact absurd hle (by decide)

theorem modify {f : OwnedParty → OwnedParty} (h : Forward g g')
    (hf : ∀ p, p.destroyState ≤ (f p).destroyState) (id : PartyId) :
    Forward g (g'.modify id f) := by
  refine h.trans fun i d hd => ?_
  rw [state?_modify]
  split
  · obtain ⟨p, hp, rfl⟩ := Option.map_eq_some_iff.mp hd
    exact ⟨_, by rw [hp]; rfl, hf p⟩
  · exact ⟨d, hd, le_refl d⟩

end Forward

theorem forward_doom (g : Graph) (id : PartyId) : Forward g (g.apply (.doom id)) := by
  have go (rs : List PartyId) {h : Graph} (hh : Forward g h) :
      Forward g (rs.foldl (fun g r => g.modify r OwnedParty.doomed) h) := by
    induction rs generalizing h with
    | nil => exact hh
    | cons r rs ih => exact ih (hh.modify OwnedParty.le_doomed r)
  exact go _ ((Forward.refl g).modify OwnedParty.le_doomed id)

/-- No step takes a party back. -/
theorem forward_apply (g : Graph) (c : GraphChange) : Forward g (g.apply c) := by
  cases c with
  | make ps =>
    intro id d hd
    obtain ⟨p, hp, rfl⟩ := Option.map_eq_some_iff.mp hd
    have hlt := (List.getElem?_eq_some_iff.mp hp).1
    have hp' : (g.apply (.make ps)).party? id = some p := (List.getElem?_append_left hlt).trans hp
    exact ⟨_, by rw [state?, hp']; rfl, le_refl _⟩
  | insert id | remove id => exact .of_eq fun _ => state?_modifySiblings _
  | clear id => exact .of_eq fun _ => state?_modifyRemotes (.owned id) fun _ => []
  | doom id => exact forward_doom g id
  | complete id => exact (Forward.refl g).modify (fun p => p.destroyState.le_destroyed) id
  | attach p type value => exact .of_eq fun _ => state?_attach ..

/-! ### Requests and completions -/

theorem isGone_modify_doomed (g : Graph) (id i : PartyId) :
    (g.modify id OwnedParty.doomed).isGone i = g.isGone i := by
  rw [isGone, party?_modify]
  split
  · cases hp : g.party? i with
    | none => simp [isGone, hp]
    | some p =>
      have : p.doomed.destroyState = .destroyed ↔ p.destroyState = .destroyed := by
        rw [OwnedParty.doomed]
        split <;> simp_all
      simp [isGone, hp, this]
  · rfl

/-- Who requests a destruction has not completed it. -/
theorem isGone_doom (g : Graph) (id i : PartyId) :
    (g.apply (.doom id)).isGone i = g.isGone i := by
  have go (rs : List PartyId) (h : Graph) (hh : h.isGone i = g.isGone i) :
      (rs.foldl (fun g r => g.modify r OwnedParty.doomed) h).isGone i = g.isGone i := by
    induction rs generalizing h with
    | nil => exact hh
    | cons r rs ih => exact ih _ ((isGone_modify_doomed h r i).trans hh)
  exact go _ _ (isGone_modify_doomed g id i)

theorem isDestroyed_modify_doomed :
    (g.modify id OwnedParty.doomed).isDestroyed i = true ↔
      g.isDestroyed i = true ∨ i < g.parties.length ∧ i = id := by
  have doomed (p : OwnedParty) : p.doomed.isDestroyed = true := by
    rw [OwnedParty.isDestroyed, OwnedParty.doomed]
    split <;> simp_all
  rw [isDestroyed, isDestroyed, party?_modify]
  cases hp : g.party? i with
  | none =>
    have hlt : ¬ i < g.parties.length := Nat.not_lt.mpr (List.getElem?_eq_none_iff.mp hp)
    simp [hlt]
  | some p =>
    have hlt : i < g.parties.length := (List.getElem?_eq_some_iff.mp hp).1
    split
    · next h => simp [doomed, hlt, h]
    · next h => simp [Ne.symm h]

/-- Whose destruction is requested, and with it that of the remote parties in its list. -/
theorem isDestroyed_doom_iff : (g.apply (.doom id)).isDestroyed i = true ↔
    g.isDestroyed i = true ∨ i < g.parties.length ∧ (i = id ∨ i ∈ g.remotesOf (.owned id)) := by
  have go (rs : List PartyId) (h : Graph) :
      (rs.foldl (fun g r => g.modify r OwnedParty.doomed) h).isDestroyed i = true ↔
        h.isDestroyed i = true ∨ i < h.parties.length ∧ i ∈ rs := by
    induction rs generalizing h with
    | nil => simp
    | cons r rs ih =>
      rw [List.foldl_cons, ih, isDestroyed_modify_doomed, length_modify, or_assoc, ← and_or_left,
        List.mem_cons]
  rw [apply, go, isDestroyed_modify_doomed, length_modify, or_assoc, ← and_or_left]

theorem isDestroyed_doom {p : OwnedParty} (hp : g.party? id = some p) :
    (g.apply (.doom id)).isDestroyed id = true :=
  isDestroyed_doom_iff.mpr (.inr ⟨(List.getElem?_eq_some_iff.mp hp).1, .inl rfl⟩)

theorem isGone_complete (hid : id < g.parties.length) :
    (g.apply (.complete id)).isGone i = (g.isGone i || decide (i = id)) := by
  rw [apply, isGone, party?_modify]
  split
  · next h =>
    subst h
    simp [party?, hid]
  · next h => simp [isGone, Ne.symm h]

/-- Only a completion makes a party gone that was made before. -/
theorem isGone_apply (g : Graph) {c : GraphChange} (hmake : ∀ ps, c ≠ .make ps)
    (hcomplete : ∀ id, c ≠ .complete id) (i : PartyId) : (g.apply c).isGone i = g.isGone i := by
  cases c with
  | make ps => exact absurd rfl (hmake ps)
  | complete id => exact absurd rfl (hcomplete id)
  | insert id | remove id => exact isGone_congr (state?_modifySiblings _)
  | clear id => exact isGone_congr (state?_modifyRemotes (.owned id) fun _ => [])
  | doom id => exact isGone_doom g id i
  | attach p type value => exact isGone_congr (state?_attach ..)

/-- Who is made alive was not there before, and nobody else is any different. -/
theorem state?_make {ps : List OwnedParty} (h : ∀ p ∈ ps, p.destroyState = .alive) :
    (g.apply (.make ps)).state? i = g.state? i ∨
      g.state? i = none ∧ (g.apply (.make ps)).state? i = some .alive := by
  by_cases hlt : i < g.parties.length
  · have : (g.apply (.make ps)).party? i = g.party? i := List.getElem?_append_left hlt
    exact .inl (by rw [state?, state?, this])
  · have hnone : g.party? i = none := List.getElem?_eq_none (Nat.not_lt.mp hlt)
    have hnew : (g.apply (.make ps)).party? i = ps[i - g.parties.length]? :=
      List.getElem?_append_right (Nat.not_lt.mp hlt)
    rw [state?, state?, hnone, hnew]
    cases hp : ps[i - g.parties.length]? with
    | none => exact .inl rfl
    | some p => simp [h p (List.mem_of_getElem? hp)]

theorem isGone_make {ps : List OwnedParty} (h : ∀ p ∈ ps, p.destroyState = .alive) :
    (g.apply (.make ps)).isGone i = g.isGone i := by
  rcases state?_make (g := g) (i := i) h with hsame | ⟨hnone, halive⟩
  · exact isGone_congr hsame
  · rw [Bool.eq_iff_iff, isGone_iff, isGone_iff, hnone, halive]
    simp

theorem isDestroyed_make {ps : List OwnedParty} (h : ∀ p ∈ ps, p.destroyState = .alive) :
    (g.apply (.make ps)).isDestroyed i = g.isDestroyed i := by
  rcases state?_make (g := g) (i := i) h with hsame | ⟨hnone, halive⟩
  · exact isDestroyed_congr hsame
  · rw [Bool.eq_iff_iff, isDestroyed_iff, isDestroyed_iff, hnone, halive]
    simp

/-- Only a request and a completion make a party one that is being destroyed or has been. -/
theorem isDestroyed_of_apply {c : GraphChange}
    (hmake : ∀ ps, c = .make ps → ∀ p ∈ ps, p.destroyState = .alive)
    (h : (g.apply c).isDestroyed i = true) :
    g.isDestroyed i = true ∨ c = .complete i ∨
      ∃ id, c = .doom id ∧ (i = id ∨ i ∈ g.remotesOf (.owned id)) := by
  cases c with
  | make ps => exact .inl (isDestroyed_make (hmake ps rfl) ▸ h)
  | insert id | remove id => exact .inl (isDestroyed_congr (state?_modifySiblings _) ▸ h)
  | clear id =>
    exact .inl (isDestroyed_congr (state?_modifyRemotes (.owned id) fun _ => []) ▸ h)
  | doom id =>
    rcases isDestroyed_doom_iff.mp h with h | ⟨-, hid⟩
    · exact .inl h
    · exact .inr (.inr ⟨id, rfl, hid⟩)
  | complete id =>
    by_cases hid : id = i
    · exact .inr (.inl (hid ▸ rfl))
    · rw [isDestroyed, apply, party?_modify, if_neg hid] at h
      exact .inl h
  | attach p type value => exact .inl (isDestroyed_congr (state?_attach ..) ▸ h)

end Graph

namespace Draft

/-- Parties are alive when they are made. -/
theorem alive_make {root c : PartyConfiguration} {owner : PartyRef} {dynamic : Bool}
    {first : PartyId} {ps : Parties} :
    ∀ p ∈ (make root owner c dynamic first ps).parties, p.destroyState = .alive := by
  intro p hp
  obtain ⟨c, o, oc, rs, rfl, -⟩ := exists_of_mem_make hp
  rfl

end Draft

namespace Graph

variable {g g' : Graph} {id i : PartyId} {owner : PartyRef}

/-! ### Lists -/

/-- Whether a party is in a list, be it one that is in the graph or not. -/
def Listed (g : Graph) (id : PartyId) : Prop := id ∈ g.tenants ∨ ∃ o, id ∈ g.remotesOf o

/-- Whether no list of remote parties has the same party twice. -/
def Tidy (g : Graph) : Prop := ∀ o, (g.remotesOf o).Nodup

theorem Alike.listed (h : Alike g g') : g'.Listed id ↔ g.Listed id := by
  simp only [Listed, h.tenants, h.remotesOf]

theorem Alike.tidy (h : Alike g g') (ht : g.Tidy) : g'.Tidy := fun o => h.remotesOf o ▸ ht o

/-- Whether those who are gone are in no list. -/
def Apart (g : Graph) : Prop := ∀ id, g.isGone id = true → ¬ g.Listed id

theorem remotesOf_of_le (h : g.parties.length ≤ id) : g.remotesOf (.owned id) = [] := by
  have hnone : g.party? id = none := List.getElem?_eq_none h
  simp [remotesOf, hnone]

section Made

variable {first : PartyId} {d : Draft} {ps : Parties} {c : PartyConfiguration} {dynamic : Bool}

/-- A tenant domain of a draft has parties of the draft in its list, and none of them twice. -/
theorem Drafted.list (h : g.Drafted owner first d ps) (hid : id ∈ d.tenants) :
    (g.remotesOf (.owned id)).Nodup ∧ ∀ r ∈ g.remotesOf (.owned id), first ≤ r := by
  constructor
  · have hfamily : (g.family d.remotes d.tenants).Nodup := h.family ▸ List.nodup_range'
    obtain ⟨-, htenants, -⟩ := List.nodup_append.mp hfamily
    exact ((List.nodup_flatMap.mp htenants).1 id hid).of_cons
  · intro r hr
    have hfamily : r ∈ g.family d.remotes d.tenants :=
      List.mem_append_right _ (List.mem_flatMap.mpr ⟨id, hid, List.mem_cons_of_mem _ hr⟩)
    rw [h.family] at hfamily
    exact (List.mem_range'_1.mp hfamily).1

/-- When a draft is made, the lists are those that there were, those of its tenant domains, and
empty ones. -/
theorem remotesOf_make (hd : d = Draft.make g.root owner c dynamic g.parties.length ps)
    (o : PartyRef) :
    (g.apply (.make d.parties)).remotesOf o = g.remotesOf o ∨
      (g.apply (.make d.parties)).remotesOf o = [] ∨ ∃ id ∈ d.tenants, o = .owned id := by
  by_cases ho : ∀ id, o = .owned id → id < g.parties.length
  · exact .inl ((extends_make g d.parties).remotesOf o ho)
  · obtain ⟨id, rfl, hle⟩ : ∃ id, o = .owned id ∧ g.parties.length ≤ id := by
      simpa using ho
    refine .inr ?_
    by_cases hlt : id < (g.apply (.make d.parties)).parties.length
    · rw [length_make] at hlt
      rcases (drafted_make hd).lists id (List.mem_range'_1.mpr ⟨hle, hlt⟩) with hid | hempty
      · exact .inr ⟨id, hid, rfl⟩
      · exact .inl hempty
    · exact .inl (remotesOf_of_le (Nat.not_lt.mp hlt))

theorem Tidy.make (h : g.Tidy)
    (hd : d = Draft.make g.root owner c dynamic g.parties.length ps) :
    (g.apply (.make d.parties)).Tidy := by
  intro o
  rcases remotesOf_make hd o with hold | hempty | ⟨id, hid, rfl⟩
  · rw [hold]
    exact h o
  · rw [hempty]
    exact List.nodup_nil
  · exact ((drafted_make hd).list hid).1

/-- The lists of tenant domains that are made hold parties that are made with them. -/
theorem listed_make (hd : d = Draft.make g.root owner c dynamic g.parties.length ps)
    (h : (g.apply (.make d.parties)).Listed i) : g.Listed i ∨ g.parties.length ≤ i := by
  rcases h with h | ⟨o, h⟩
  · exact .inl (.inl h)
  · rcases remotesOf_make hd o with hold | hempty | ⟨id, hid, rfl⟩
    · exact .inl (.inr ⟨o, hold ▸ h⟩)
    · rw [hempty] at h
      cases h
    · exact .inr (((drafted_make hd).list hid).2 i h)

end Made

theorem isDestroyed_ofResolved (r : ResolvedRoot) : (ofResolved r).isDestroyed id = false := by
  rw [isDestroyed]
  cases hp : (ofResolved r).party? id with
  | none => rfl
  | some p => simp [OwnedParty.isDestroyed, Draft.alive_make p (List.mem_of_getElem? hp)]

theorem isGone_ofResolved (r : ResolvedRoot) : (ofResolved r).isGone id = false := by
  rw [isGone]
  cases hp : (ofResolved r).party? id with
  | none => rfl
  | some p => simp [Draft.alive_make p (List.mem_of_getElem? hp)]

theorem tidy_ofResolved (r : ResolvedRoot) : (ofResolved r).Tidy := by
  have drafted := drafted_ofResolved r
  intro o
  cases o with
  | root =>
    have hfamily := drafted.family ▸ List.nodup_range'
    exact (List.nodup_append.mp hfamily).1
  | owned id =>
    by_cases hlt : id < (ofResolved r).parties.length
    · have hid : id ∈ List.range' 0 (ofResolved r).parties.length :=
        List.mem_range'_1.mpr ⟨Nat.zero_le _, by rwa [Nat.zero_add]⟩
      rcases drafted.lists id hid with hid | hempty
      · exact (drafted.list hid).1
      · rw [hempty]
        exact List.nodup_nil
    · rw [remotesOf_of_le (Nat.not_lt.mp hlt)]
      exact List.nodup_nil

/-! ### Parties that come and go -/

section Insert

theorem listed_insert_remote (hr : g.IsRemote owner id)
    (hc : ∃ c, g.configuration? owner = some c) :
    (g.apply (.insert id)).Listed i ↔ g.Listed i ∨ i = id := by
  have ht : (g.apply (.insert id)).tenants = g.tenants := by
    rw [apply_insert_remote hr, tenants_modifyRemotes]
  simp only [Listed, ht, remotesOf_insert_remote hr hc]
  constructor
  · rintro (h | ⟨o, h⟩)
    · exact .inl (.inl h)
    · split at h
      · rcases List.mem_append.mp h with h | h
        · exact .inl (.inr ⟨o, h⟩)
        · exact .inr (List.mem_singleton.mp h)
      · exact .inl (.inr ⟨o, h⟩)
  · rintro ((h | ⟨o, h⟩) | rfl)
    · exact .inl h
    · refine .inr ⟨o, ?_⟩
      split
      · exact List.mem_append_left _ h
      · exact h
    · exact .inr ⟨owner, by simp⟩

theorem listed_insert_tenant (ht : g.IsTenant id) :
    (g.apply (.insert id)).Listed i ↔ g.Listed i ∨ i = id := by
  have hlists (o : PartyRef) : (g.apply (.insert id)).remotesOf o = g.remotesOf o := by
    rw [apply_insert_tenant ht]
    cases o <;> rfl
  have htenants : (g.apply (.insert id)).tenants = g.tenants ++ [id] := by
    rw [apply_insert_tenant ht]
  simp only [Listed, hlists, htenants, List.mem_append, List.mem_singleton]
  rw [or_right_comm]

theorem Tidy.insert_remote (h : g.Tidy) (hr : g.IsRemote owner id)
    (hc : ∃ c, g.configuration? owner = some c) (hid : ¬ g.Listed id) :
    (g.apply (.insert id)).Tidy := by
  intro o
  rw [remotesOf_insert_remote hr hc]
  split
  · rw [← List.concat_eq_append]
    exact (h o).concat fun hmem => hid (.inr ⟨o, hmem⟩)
  · exact h o

theorem Tidy.insert_tenant (h : g.Tidy) (ht : g.IsTenant id) : (g.apply (.insert id)).Tidy := by
  rw [apply_insert_tenant ht]
  intro o
  cases o with
  | root => exact h .root
  | owned t => exact h (.owned t)

end Insert

section Without

variable {p : OwnedParty}

theorem Tidy.without (h : g.Tidy) (hs : g.Sound) (hp : g.party? id = some p) :
    (g.without id p).Tidy := by
  intro o
  cases hk : p.isTenant with
  | true =>
    rw [without_tenant hk, remotesOf_clear, apply_remove_tenant (isTenant_of_party? hp hk)]
    split
    · exact List.nodup_nil
    · cases o with
      | root => exact h .root
      | owned t => exact h (.owned t)
  | false =>
    rw [without_remote hk, remotesOf_remove_remote hs (isRemote_of_party? hp hk)]
    exact (h o).filter _

/-- When a tenant domain leaves its list, all others stay where they are. -/
theorem listed_remove_tenant (ht : g.IsTenant id) (h : (g.apply (.remove id)).Listed i) :
    g.Listed i := by
  rw [apply_remove_tenant ht] at h
  rcases h with h | ⟨o, h⟩
  · exact .inl (List.mem_of_mem_filter h)
  · refine .inr ⟨o, ?_⟩
    cases o <;> exact h

/-- A remote party leaves the only list that it can be in. -/
theorem listed_without_remote (hs : g.Sound) (hp : g.party? id = some p)
    (hno : p.isTenant = false) : (g.without id p).Listed i ↔ g.Listed i ∧ i ≠ id := by
  have hr := isRemote_of_party? hp hno
  have ht : (g.apply (.remove id)).tenants = g.tenants := by
    rw [apply_remove_remote hr, tenants_modifyRemotes]
  simp only [without_remote hno, Listed, ht, remotesOf_remove_remote hs hr, List.mem_filter,
    decide_eq_true_eq]
  constructor
  · rintro (h | ⟨o, h, hne⟩)
    · exact ⟨.inl h, fun heq => hs.not_mem_tenants hr (heq ▸ h)⟩
    · exact ⟨.inr ⟨o, h⟩, hne⟩
  · rintro ⟨h | ⟨o, h⟩, hne⟩
    · exact .inl h
    · exact .inr ⟨o, h, hne⟩

/-- A tenant domain leaves its list, and its remote parties leave theirs. -/
theorem listed_without_tenant (hs : g.Sound) (hp : g.party? id = some p)
    (hyes : p.isTenant = true) :
    (g.without id p).Listed i ↔ g.Listed i ∧ i ≠ id ∧ i ∉ g.remotesOf (.owned id) := by
  have ht := isTenant_of_party? hp hyes
  have hlists (o : PartyRef) : (g.without id p).remotesOf o
      = if o = .owned id then [] else g.remotesOf o := by
    rw [without_tenant hyes, remotesOf_clear, apply_remove_tenant ht]
    cases o <;> rfl
  have htenants : (g.without id p).tenants = g.tenants.filter (· ≠ id) := by
    rw [without_tenant hyes]
    exact congrArg tenants (apply_remove_tenant ht)
  simp only [Listed, hlists, htenants, List.mem_filter, decide_eq_true_eq]
  constructor
  · rintro (⟨h, hne⟩ | ⟨o, h⟩)
    · refine ⟨.inl h, hne, fun hmem => ?_⟩
      exact not_isTenant_of_isRemote (hs.remotes _ _ hmem) (hs.tenants i h)
    · split at h
      · cases h
      · next ho =>
        refine ⟨.inr ⟨o, h⟩, ?_, fun hmem => ho (hs.owner_of_mem (hs.remotes _ _ hmem) h)⟩
        rintro rfl
        exact not_isTenant_of_isRemote (hs.remotes _ _ h) ht
  · rintro ⟨h | ⟨o, h⟩, hne, hno⟩
    · exact .inl ⟨h, hne⟩
    · refine .inr ⟨o, ?_⟩
      rw [if_neg]
      · exact h
      · rintro rfl
        exact hno h

end Without

end Graph

end PartyGraph
