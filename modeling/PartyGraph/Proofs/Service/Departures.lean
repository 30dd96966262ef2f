import Mathlib.Data.List.Count
import PartyGraph.Proofs.Service.EventReplay

/-!
# A party disappears once

A party is told to disappear in two ways: when its own destruction is handled, and as one of the
remote parties of a tenant domain that is destroyed. Both may be in line for the same party, in
either order. They do not get in each other's way, since whoever disappears is taken out of its list
and gone from then on, and nothing is done for a party that is gone (`Service.Departures`).

For this a party must not come back into a list after it is gone. Only additions put parties into
lists, and the parties of an addition that waits have not been in any list, nor has their
destruction been handled: it comes later in line.

All this is so at every point, between the steps of a destruction too: a tenant domain and its
remote parties leave their lists before anyone of them is said to be destroyed (`Service.Always`).

## Main definitions

* `Service.Always`: what holds of each graph that a service has passed through.
* `Service.Departures`: where the parties are of which some may be gone.

## Main results

* `Service.loses_removeParty`, `Service.listed_removeParty`: those who leave are gone and are in
  no list.
* `Service.Departures.asked`, `Service.Departures.published`, `Service.Departures.removed`: what
  can happen.
* `Service.departures_play`: any history.
-/

namespace PartyGraph

theorem Entry.IsAside.event?_eq_none {e : Entry} (h : e.IsAside) : e.event? = none := by
  cases e with
  | told channel signal =>
    cases signal with
    | beat count => cases channel <;> rfl
    | party e => cases channel <;> cases h
  | _ => rfl

/-- A party of a batch is in a list only if it is in the one where it belongs. -/
theorem Batch.Fits.not_listed {b : Batch} {g : Graph} {id : PartyId} (hb : b.Fits g)
    (hs : g.Sound) (hid : id ∈ b.parties)
    (ht : id ∉ g.tenants) (hr : id ∉ g.remotesOf b.owner) : ¬ g.Listed id := by
  rintro (h | ⟨o, h⟩)
  · exact ht h
  · have hremote := hs.remotes o id h
    rcases List.mem_append.mp hid with hid | hid
    · exact hr (hremote.owner_unique (hb.remotes id hid) ▸ h)
    · exact Graph.not_isTenant_of_isRemote hremote (hb.tenants id hid)

namespace Service

variable {s s' : Service} {g₀ : Graph} {id x : PartyId} {p : OwnedParty} {b : Batch}
  {jobs line : List IdentityJob}

/-! ### At every point -/

/-- Whether `P` holds of each graph that a service has passed through since it was `g₀`. -/
structure Always (P : Graph → Prop) (g₀ : Graph) (s : Service) : Prop where
  graph : s.graph = g₀.after s.journal
  each : ∀ j, j <:+ s.journal → P (g₀.after j)

namespace Always

variable {P Q : Graph → Prop} {c : GraphChange}

theorem now (h : s.Always P g₀) : P s.graph := h.graph ▸ h.each _ (List.suffix_refl _)

theorem mono (h : s.Always P g₀) (hPQ : ∀ g, P g → Q g) : s.Always Q g₀ :=
  ⟨h.graph, fun j hj => hPQ _ (h.each j hj)⟩

/-- One more entry. -/
theorem cons {e : Entry} (h : s.Always P g₀) (hg : s'.graph = e.act s.graph)
    (hj : s'.journal = e :: s.journal) (hP : P s'.graph) : s'.Always P g₀ where
  graph := by
    rw [hj, hg, h.graph]
    rfl
  each j hsuffix := by
    rw [hj] at hsuffix
    rcases List.suffix_cons_iff.mp hsuffix with rfl | hsuffix
    · rw [hg, h.graph] at hP
      exact hP
    · exact h.each j hsuffix

theorem record (h : s.Always P g₀) {e : Entry} (he : e.act s.graph = s.graph) :
    (s.record e).Always P g₀ :=
  h.cons he.symm rfl h.now

theorem change (h : s.Always P g₀) (hP : P (s.graph.apply c)) : (s.change c).Always P g₀ :=
  h.cons rfl rfl hP

theorem tellOfRemote (h : s.Always P g₀) (owner : PartyRef) (e : PartyEvent) :
    (s.tellOfRemote owner e).Always P g₀ :=
  (h.record (e := .told _ _) rfl).record rfl

theorem tellOfRemotes (h : s.Always P g₀) (owner : PartyRef) (e : PartyId → PartyEvent)
    (rs : List PartyId) : (rs.foldl (fun s r => s.tellOfRemote owner (e r)) s).Always P g₀ := by
  induction rs generalizing s with
  | nil => exact h
  | cons r rs ih => exact ih (h.tellOfRemote owner (e r))

theorem aside (h : s.Always P g₀) (ha : s.Aside s') : s'.Always P g₀ := by
  obtain ⟨new, hj, hall⟩ := ha.journal
  suffices hnew : ({ s with journal := new ++ s.journal } : Service).Always P g₀ from
    ⟨ha.graph.trans (hj ▸ hnew.graph), hj ▸ hnew.each⟩
  clear hj
  induction new with
  | nil => exact h
  | cons e new ih =>
    rw [List.forall_mem_cons] at hall
    exact (ih hall.2).record (hall.1.act _)

/-- A request changes the graph once at most. -/
theorem asked (h : s.Always P g₀) (ha : s.Asked s') (hP : P s'.graph) : s'.Always P g₀ := by
  have changed (c : GraphChange) (hc : P (s.graph.apply c)) : (s.change c).Always P g₀ :=
    h.change hc
  cases ha with
  | quiet ha => exact ⟨by rw [ha.graph, ha.journal, h.graph], ha.journal ▸ h.each⟩
  | @unready s₁ ha i =>
    have same : s₁.Always P g₀ := ⟨by rw [ha.graph, ha.journal, h.graph], ha.journal ▸ h.each⟩
    exact same.record rfl
  | attached => exact changed _ hP
  | unmoved | refused | empty => exact h.record rfl
  | @doomed id _ _ _ _ _ _ hpost =>
    cases hpost with
    | accepted | refused => exact (changed (.doom id) hP).cons rfl rfl hP
  | @stranded owner _ c parties =>
    exact (changed (.make (s.draft owner c parties).parties) hP).cons rfl rfl hP
  | @enlisted owner _ c parties =>
    exact (changed (.make (s.draft owner c parties).parties) hP).cons rfl rfl hP

end Always

/-! ### Those who leave -/

/-- On the way from `s` to `t` the parties of `ids` are lost, and nobody else. -/
structure Loses (s : Service) (ids : List PartyId) (t : Service) : Prop where
  length : t.graph.parties.length = s.graph.parties.length
  gone : ∀ x, t.graph.isGone x = true ↔ s.graph.isGone x = true ∨ x ∈ ids

namespace Loses

variable {t : Service} {ids rs : List PartyId}

theorem refl (s : Service) : s.Loses [] s := ⟨rfl, by simp⟩

/-- Steps of other sorts. -/
theorem change (h : s.Loses ids t) {c : GraphChange} (hmake : ∀ ps, c ≠ .make ps)
    (hcomplete : ∀ id, c ≠ .complete id) : s.Loses ids (t.change c) where
  length := (Graph.length_apply _ hmake).trans h.length
  gone x := by
    rw [← h.gone, graph_change, Graph.isGone_apply _ hmake hcomplete]

theorem complete (h : s.Loses ids t) (hid : id < s.graph.parties.length) :
    s.Loses (ids ++ [id]) (t.change (.complete id)) where
  length := (Graph.length_apply _ (by simp)).trans h.length
  gone x := by
    rw [graph_change, Graph.isGone_complete (h.length.symm ▸ hid), Bool.or_eq_true, h.gone,
      decide_eq_true_iff, List.mem_append, List.mem_singleton, or_assoc]

/-- The remote parties of a tenant domain, one after the other. -/
theorem completes (h : s.Loses ids t) (owner : PartyRef)
    (hrs : ∀ r ∈ rs, r < s.graph.parties.length) :
    s.Loses (ids ++ rs) (rs.foldl
      (fun s r => (s.tellOfRemote owner (.disappeared r)).change (.complete r)) t) := by
  induction rs generalizing ids t with
  | nil => rwa [List.append_nil]
  | cons r rs ih =>
    rw [List.forall_mem_cons] at hrs
    have told : s.Loses ids (t.tellOfRemote owner (.disappeared r)) := ⟨h.length, h.gone⟩
    rw [List.append_cons]
    exact ih (told.complete hrs.1) hrs.2

end Loses

/-- Those who leave are gone after that. -/
theorem loses_removeParty (hs : s.graph.Sound) (hp : s.graph.party? id = some p) :
    s.Loses (departing s.graph id p) (s.removeParty id p) := by
  have hid : id < s.graph.parties.length := (List.getElem?_eq_some_iff.mp hp).1
  have removed : s.Loses [] (s.change (.remove id)) := (Loses.refl s).change (by simp) (by simp)
  rw [removeParty, departing]
  cases hk : p.isTenant with
  | true =>
    have hlist : (s.graph.apply (.remove id)).remotesOf (.owned id)
        = s.graph.remotesOf (.owned id) := by
      rw [Graph.apply_remove_tenant (Graph.isTenant_of_party? hp hk)]
      rfl
    have cleared := removed.change (c := .clear id) (by simp) (by simp)
    have completed := cleared.completes (.owned id)
      fun r (hr : r ∈ s.graph.remotesOf (.owned id)) => (hs.remotes _ r hr).lt
    rw [if_pos rfl, if_pos rfl, removeTenant, graph_change, hlist]
    have told : ∀ t : Service, s.Loses (s.graph.remotesOf (.owned id)) t →
        s.Loses (s.graph.remotesOf (.owned id)) (t.tell .all (.party (.disappeared id))) :=
      fun t h => ⟨h.length, h.gone⟩
    exact (told _ completed).complete hid
  | false =>
    have told : s.Loses []
        ((s.change (.remove id)).tellOfRemote p.owner (.disappeared id)) :=
      ⟨removed.length, removed.gone⟩
    rw [if_neg (by simp), if_neg (by simp), removeRemote]
    exact told.complete hid

/-- They are in no list. -/
theorem listed_removeParty (hs : s.graph.Sound) (hp : s.graph.party? id = some p) :
    (s.removeParty id p).graph.Listed x ↔ s.graph.Listed x ∧ x ∉ departing s.graph id p := by
  rw [(alike_removeParty s id p).listed, departing]
  cases hk : p.isTenant with
  | true =>
    rw [Graph.listed_without_tenant hs hp hk]
    simp [not_or, and_comm]
  | false =>
    rw [Graph.listed_without_remote hs hp hk]
    simp

/-- Nobody leaves twice at once. -/
theorem nodup_departing (hs : s.graph.Sound) (ht : s.graph.Tidy)
    (hp : s.graph.party? id = some p) : (departing s.graph id p).Nodup := by
  rw [departing]
  cases hk : p.isTenant with
  | true =>
    rw [if_pos rfl, ← List.concat_eq_append]
    refine (ht (.owned id)).concat fun hmem => ?_
    exact Graph.not_isTenant_of_isRemote (hs.remotes _ _ hmem) (Graph.isTenant_of_party? hp hk)
  | false =>
    rw [if_neg (by simp)]
    exact List.nodup_singleton id

/-- From the first step on that takes anyone out of a list, either nobody is gone yet who was not
before, or the lists are already those that are left in the end. -/
theorem parted_removeParty (h : s.Always Graph.Apart g₀) (hp : s.graph.party? id = some p) :
    (s.removeParty id p).Always
      (fun g => g.Apart ∨ Graph.Alike (s.graph.without id p) g) g₀ := by
  have start : s.Always (fun g => g.Apart ∨ Graph.Alike (s.graph.without id p) g) g₀ :=
    h.mono fun _ => .inl
  refine (removeParty_induction (P := fun t =>
    t.Always (fun g => g.Apart ∨ Graph.Alike (s.graph.without id p) g) g₀ ∧
      Graph.Alike (s.graph.without id p) t.graph) s id p (fun hno => ?_) (fun hyes => ?_)
    (fun t channel e ht => ⟨ht.1.record rfl, ht.2⟩) fun t i _ ht => ?_).1
  · rw [Graph.without_remote hno] at start ⊢
    exact ⟨start.change (.inr (.refl _)), .refl _⟩
  · have removed : (s.graph.apply (.remove id)).Apart := by
      intro x hgone hlisted
      rw [Graph.isGone_apply _ (by simp) (by simp)] at hgone
      exact h.now x hgone (Graph.listed_remove_tenant (Graph.isTenant_of_party? hp hyes) hlisted)
    rw [Graph.without_tenant hyes] at start ⊢
    exact ⟨(start.change (.inl removed)).change (.inr (.refl _)), .refl _⟩
  · have alike := ht.2.trans (Graph.alike_complete t.graph i)
    exact ⟨ht.1.change (.inr alike), alike⟩

/-- If those who are gone are in no list in the end, they were in none at any point. -/
theorem Always.removeParty (h : s.Always Graph.Apart g₀) (hp : s.graph.party? id = some p)
    (hend : (s.removeParty id p).graph.Apart) : (s.removeParty id p).Always Graph.Apart g₀ := by
  have parted := parted_removeParty h hp
  refine ⟨parted.graph, fun j hj => ?_⟩
  rcases parted.each j hj with hapart | hlists
  · exact hapart
  · intro x hgone hlisted
    obtain ⟨rest, hrest⟩ := hj
    have hafter : (s.removeParty id p).graph = (g₀.after j).after rest := by
      rw [parted.graph, ← hrest, Graph.after_append]
    have hgone' : (s.removeParty id p).graph.isGone x = true := by
      rw [hafter]
      exact (Graph.forward_after _ rest).isGone hgone
    exact hend x hgone' ((alike_removeParty s id p).listed.mpr (hlists.listed.mp hlisted))

theorem mem_departing : x ∈ departing s.graph id p → x = id ∨ s.graph.Listed x := by
  rw [departing, List.mem_append, List.mem_singleton]
  rintro (h | rfl)
  · split at h
    · exact .inr (.inr ⟨_, h⟩)
    · cases h
  · exact .inl rfl

/-! ### Those who are put into the graph -/

/-- What holds while a batch is put into the graph of a service `s` that is `t` by now, when the
parties of `rest` are still to come. -/
structure Entering (g₀ : Graph) (b : Batch) (s : Service) (rest : List PartyId) (t : Service) :
    Prop where
  apart : t.Always Graph.Apart g₀
  tidy : t.graph.Tidy
  gone : ∀ id, t.graph.isGone id = s.graph.isGone id
  listed : ∀ id, t.graph.Listed id → s.graph.Listed id ∨ id ∈ b.parties ∧ id ∉ rest

/-- One of them comes into a list. -/
theorem Entering.step {t t' : Service} {rest rest' : List PartyId}
    (h : Entering g₀ b s (id :: rest) t) (hs : s.graph.Apart) (hid : id ∈ b.parties)
    (hno : ∀ i ∈ b.parties, s.graph.isGone i = false ∧ ¬ s.graph.Listed i)
    (hsub : ∀ i ∈ rest', i ∈ rest) (hnodup : id ∉ rest)
    (gone : ∀ i, t'.graph.isGone i = t.graph.isGone i)
    (listed : ∀ i, t'.graph.Listed i ↔ t.graph.Listed i ∨ i = id)
    (tidy : ¬ t.graph.Listed id → t'.graph.Tidy)
    (apart : t'.graph.Apart → t'.Always Graph.Apart g₀) : Entering g₀ b s rest' t' := by
  have hlisted (i : PartyId) (hi : t'.graph.Listed i) :
      s.graph.Listed i ∨ i ∈ b.parties ∧ i ∉ rest' := by
    rcases (listed i).mp hi with hi | rfl
    · exact (h.listed i hi).imp_right fun hrest =>
        ⟨hrest.1, fun hmem => hrest.2 (List.mem_cons_of_mem _ (hsub i hmem))⟩
    · exact .inr ⟨hid, fun hmem => hnodup (hsub i hmem)⟩
  constructor
  case apart =>
    refine apart fun i hgone hi => ?_
    rw [gone, h.gone] at hgone
    rcases hlisted i hi with hi | ⟨hi, -⟩
    · exact hs i hgone hi
    · exact absurd ((hno i hi).1.symm.trans hgone) (by simp)
  case tidy =>
    refine tidy fun hlisted => ?_
    rcases h.listed id hlisted with hlisted | ⟨-, hrest⟩
    · exact (hno id hid).2 hlisted
    · exact hrest List.mem_cons_self
  case gone => exact fun i => (gone i).trans (h.gone i)
  case listed => exact hlisted

theorem entering_publish (hb : b.Fits s.graph) (hs : s.graph.Sound)
    (hroom : s.graph.Room (b.family s.graph)) (ha : s.Always Graph.Apart g₀) (ht : s.graph.Tidy)
    (hno : ∀ i ∈ b.parties, s.graph.isGone i = false ∧ ¬ s.graph.Listed i) :
    Entering g₀ b s [] (s.publish b) := by
  refine (publish_induction (P := Entering g₀ b s) hb hs hroom (fun id rest t hid hp h => ?_)
    (fun id rest t hid hp h => ?_) ⟨ha, ht, fun _ => rfl, fun _ => .inl⟩).2
  · have hmem : id ∈ b.parties := List.mem_append_left _ hid
    have hremote : t.graph.IsRemote b.owner id := (hb.remotes id hid).congr (hp.origin id)
    exact h.step ha.now hmem hno (fun _ hi => hi) (List.nodup_cons.mp hp.room.not_mem.1).1
      (fun i => Graph.isGone_apply _ (by simp) (by simp) i)
      (fun i => Graph.listed_insert_remote hremote (hp.owner hb))
      (fun h' => h.tidy.insert_remote hremote (hp.owner hb) h')
      fun hapart => (h.apart.change hapart).tellOfRemote _ _
  · have hmem : id ∈ b.parties := List.mem_append_right _ hid
    have htenant : t.graph.IsTenant id := (hb.tenants id hid).congr (hp.origin id)
    rw [List.cons_append] at hp h
    refine h.step ha.now hmem hno (fun _ hi => List.mem_append_right _ hi)
      (List.nodup_cons.mp hp.room.not_mem.1).1 (fun i => ?_) (fun i => ?_) (fun _ => ?_)
      fun hapart => ?_
    · rw [graph_publishTenant]
      exact Graph.isGone_apply _ (by simp) (by simp) i
    · rw [graph_publishTenant]
      exact Graph.listed_insert_tenant htenant
    · rw [graph_publishTenant]
      exact h.tidy.insert_tenant htenant
    · rw [graph_publishTenant] at hapart
      exact ((h.apart.change hapart).record rfl).tellOfRemotes _ _ _

/-! ### What is kept -/

/-- Where the parties are of which some may be gone, when the jobs of a list are still to come or
under way: nobody who is gone is in a list or disappeared twice, nobody else disappeared, and the
parties of a batch that waits are neither gone nor in a list. -/
structure Departures (g₀ : Graph) (jobs : List IdentityJob) (s : Service) : Prop where
  apart : s.Always Graph.Apart g₀
  tidy : s.graph.Tidy
  told : ∀ id, s.events.count (.disappeared id) ≤ (s.graph.isGone id).toNat
  waiting : ∀ b, .add b ∈ jobs → ∀ id ∈ b.parties,
    s.graph.isGone id = false ∧ ¬ s.graph.Listed id

theorem Asked.listed (ha : s.Asked s') (h : s'.graph.Listed id) :
    s.graph.Listed id ∨ s.graph.parties.length ≤ id := by
  cases ha with
  | quiet ha => exact .inl (ha.graph ▸ h)
  | unready ha i => exact .inl (ha.graph ▸ h)
  | attached p type value => exact .inl ((Graph.alike_attach _ p type value).listed.mp h)
  | unmoved | refused | empty => exact .inl h
  | @doomed i _ _ _ _ _ _ hpost =>
    refine .inl ((Graph.alike_doom s.graph i).listed.mp ?_)
    cases hpost <;> exact h
  | stranded | enlisted => exact Graph.listed_make rfl h

theorem Asked.tidy (ha : s.Asked s') (h : s.graph.Tidy) : s'.graph.Tidy := by
  cases ha with
  | quiet ha => exact ha.graph ▸ h
  | unready ha i => exact ha.graph ▸ h
  | attached p type value => exact (Graph.alike_attach _ p type value).tidy h
  | unmoved | refused | empty => exact h
  | @doomed id _ _ _ _ _ _ hpost =>
    have := (Graph.alike_doom s.graph id).tidy h
    cases hpost <;> exact this
  | stranded | enlisted => exact h.make rfl

/-- The parties that are made for an addition are new. -/
theorem Asked.not_listed (ha : s.Asked s') (hs : s.graph.Sound) (hs' : s'.graph.Sound) {m : Nat}
    (ready : b.Ready s' s.graph.parties.length m) (hid : id ∈ b.parties) :
    s'.graph.isGone id = false ∧ ¬ s'.graph.Listed id := by
  have he := ha.graph_extends
  have hle := (ready.mem_family_iff.mp (Batch.mem_family.mpr (.inl hid))).1
  constructor
  · rw [ha.isGone, Bool.eq_false_iff]
    exact fun hgone => Nat.not_lt.mpr hle (Graph.lt_of_isGone hgone)
  · refine ready.fits.not_listed hs' hid (fun ht => ?_) fun hr => ?_
    · rw [he.tenants] at ht
      exact Nat.not_lt.mpr hle (hs.tenants id ht).lt
    · rw [he.remotesOf b.owner ready.earlier] at hr
      exact Nat.not_lt.mpr hle (hs.remotes _ id hr).lt

namespace Departures

theorem mono (h : s.Departures g₀ jobs) {jobs' : List IdentityJob}
    (hjobs : ∀ b, .add b ∈ jobs' → .add b ∈ jobs) : s.Departures g₀ jobs' :=
  ⟨h.apart, h.tidy, h.told, fun b hb => h.waiting b (hjobs b hb)⟩

theorem record (h : s.Departures g₀ jobs) {e : Entry} (he : e.event? = none)
    (hact : e.act s.graph = s.graph) : (s.record e).Departures g₀ jobs :=
  ⟨h.apart.record hact, h.tidy, fun id => by simpa [he] using h.told id, h.waiting⟩

/-- Nothing happens that concerns parties. -/
theorem aside (h : s.Departures g₀ jobs) (ha : s.Aside s') : s'.Departures g₀ jobs := by
  have hevents : s'.events = s.events := by
    obtain ⟨new, hj, hall⟩ := ha.journal
    exact events_of_journal hj fun e he => (hall e he).event?_eq_none
  constructor
  case apart => exact h.apart.aside ha
  case tidy => exact ha.graph ▸ h.tidy
  case told => exact hevents ▸ ha.graph ▸ h.told
  case waiting => exact ha.graph ▸ h.waiting

/-- Requests. -/
theorem asked {stage : Stage} (h : s.Departures g₀ (stage.pending ++ s.jobs))
    (hc : Coherent g₀ stage s.jobs s) (ha : s.Asked s') :
    s'.Departures g₀ (stage.pending ++ s'.jobs) := by
  have hevents : s'.events = s.events := (Works.ask .refl ha).events
  have unlisted {id : PartyId} (hid : id < s.graph.parties.length) (hno : ¬ s.graph.Listed id) :
      ¬ s'.graph.Listed id := fun hlisted =>
    (ha.listed hlisted).elim hno fun hle => Nat.not_lt.mpr hle hid
  constructor
  case apart =>
    refine h.apart.asked ha fun id hid => ?_
    rw [ha.isGone] at hid
    exact unlisted (Graph.lt_of_isGone hid) (h.apart.now id hid)
  case tidy => exact ha.tidy h.tidy
  case told =>
    intro id
    rw [hevents, ha.isGone]
    exact h.told id
  case waiting =>
    have old (b : Batch) (hb : .add b ∈ stage.pending ++ s.jobs) (id : PartyId)
        (hid : id ∈ b.parties) : s'.graph.isGone id = false ∧ ¬ s'.graph.Listed id := by
      obtain ⟨n, hlined⟩ := hc.lined
      obtain ⟨k, k', -, ready⟩ := hlined.ready hb
      have hlt := (ready.mem_family_iff.mp (Batch.mem_family.mpr (.inl hid))).2
      obtain ⟨hgone, hno⟩ := h.waiting b hb id hid
      exact ⟨(ha.isGone id).trans hgone, unlisted (Nat.lt_of_lt_of_le hlt ready.bound) hno⟩
    intro b hb
    rcases ha.jobs with hjobs | ⟨i, -, hjobs⟩ | ⟨b', hjobs, ready, -⟩
    · exact old b (hjobs ▸ hb)
    · rw [hjobs, ← List.append_assoc] at hb
      exact old b (by simpa using hb)
    · rw [hjobs, ← List.append_assoc, List.mem_append] at hb
      rcases hb with hb | hb
      · exact old b hb
      · cases List.mem_singleton.mp hb
        exact fun id hid => ha.not_listed hc.sound (hc.asked ha).sound ready hid

/-- A batch is put into the graph. -/
theorem published (h : s.Departures g₀ (.add b :: line))
    (hc : Coherent g₀ (.busy (.add b)) line s) (hroom : s.graph.Room (b.family s.graph)) :
    (s.publish b).Departures g₀ line := by
  obtain ⟨n, hlined⟩ := hc.lined
  cases hlined with
  | @add _ k k' _ _ _ hn ready rest =>
    have absent := h.waiting b List.mem_cons_self
    have fits := ready.fits
    have entered := entering_publish fits hc.sound hroom h.apart h.tidy absent
    constructor
    case apart => exact entered.apart
    case tidy => exact entered.tidy
    case told =>
      intro id
      have hnone : ((b.family s.graph).map PartyEvent.appeared).count (.disappeared id) = 0 :=
        List.count_eq_zero.mpr (by simp)
      rw [events_publish fits hc.sound hroom, List.count_append, hnone, entered.gone]
      exact h.told id
    case waiting =>
      intro b' hb' id hid
      obtain ⟨hgone, hno⟩ := h.waiting b' (List.mem_cons_of_mem _ hb') id hid
      refine ⟨(entered.gone id).trans hgone, fun hlisted => ?_⟩
      rcases entered.listed id hlisted with hlisted | ⟨hmine, -⟩
      · exact hno hlisted
      · -- The numbers of a batch are smaller than those of all that stand behind it.
        obtain ⟨m, m', hm, ready'⟩ := rest.ready hb'
        have hlt := (ready.mem_family_iff.mp (Batch.mem_family.mpr (.inl hmine))).2
        have hle := (ready'.mem_family_iff.mp (Batch.mem_family.mpr (.inl hid))).1
        exact Nat.not_lt.mpr (Nat.le_trans hm hle) hlt

/-- A party leaves. -/
theorem removed (h : s.Departures g₀ (.destroy id :: line))
    (hc : Coherent g₀ (.busy (.destroy id)) line s) (hp : s.graph.party? id = some p)
    (hg : s.graph.isGone id = false) : (s.removeParty id p).Departures g₀ line := by
  have loses := loses_removeParty hc.sound hp
  have listed (x : PartyId) := listed_removeParty (x := x) hc.sound hp
  have present {x : PartyId} (hx : x ∈ departing s.graph id p) : s.graph.isGone x = false := by
    rcases mem_departing hx with rfl | hx
    · exact hg
    · exact Bool.eq_false_iff.mpr fun hgone => h.apart.now x hgone hx
  constructor
  case apart =>
    refine h.apart.removeParty hp fun x hgone hlisted => ?_
    obtain ⟨hlisted, hstays⟩ := (listed x).mp hlisted
    exact h.apart.now x (((loses.gone x).mp hgone).resolve_right hstays) hlisted
  case tidy => exact (alike_removeParty s id p).tidy (h.tidy.without hc.sound hp)
  case told =>
    intro x
    have hcount : (s.removeParty id p).events.count (.disappeared x)
        = s.events.count (.disappeared x) + (departing s.graph id p).count x := by
      rw [events_removeParty hp, List.count_append, List.count_map_of_injective]
      exact fun _ _ heq => PartyEvent.disappeared.inj heq
    have htold := h.told x
    rw [hcount]
    by_cases hx : x ∈ departing s.graph id p
    · have hgone := (loses.gone x).mpr (.inr hx)
      have hone := List.nodup_iff_count_le_one.mp (nodup_departing hc.sound h.tidy hp) x
      rw [present hx] at htold
      rw [hgone]
      exact Nat.add_le_add htold hone
    · have hgone : (s.removeParty id p).graph.isGone x = s.graph.isGone x := by
        rw [Bool.eq_iff_iff, loses.gone, or_iff_left hx]
      rwa [List.count_eq_zero_of_not_mem hx, hgone]
  case waiting =>
    intro b hb x hx
    obtain ⟨hgone, hno⟩ := h.waiting b (List.mem_cons_of_mem _ hb) x hx
    refine ⟨Bool.eq_false_iff.mpr fun hgone' => ?_, fun hlisted => hno ((listed x).mp hlisted).1⟩
    rcases (loses.gone x).mp hgone' with hgone' | hx'
    · exact absurd (hgone.symm.trans hgone') (by simp)
    · rcases mem_departing hx' with rfl | hx'
      · obtain ⟨n, hlined⟩ := hc.lined
        cases hlined with
        | @destroy _ k _ _ _ hn hid rest =>
          obtain ⟨m, m', hm, ready⟩ := rest.ready hb
          have hle := (ready.mem_family_iff.mp (Batch.mem_family.mpr (.inl hx))).1
          exact Nat.not_lt.mpr (Nat.le_trans hm hle) hid
      · exact hno hx'

end Departures

theorem steady_departures (g₀ : Graph) :
    Steady g₀ fun stage line s => s.Departures g₀ (stage.pending ++ line) where
  asked hc h ha := h.asked hc ha
  aside h ha := h.aside ha
  taken {c line s} h := by
    have hjobs : (Stage.ofCall c).pending ++ line = c.job?.toList ++ line := by
      cases c <;> rfl
    rw [hjobs]
    exact h.record rfl rfl
  dropped {j _ _} h := by
    have tail := h.mono fun b hb => List.mem_cons_of_mem j hb
    cases j with
    | add b => exact tail.record rfl rfl
    | destroy id => exact tail
  left h := h.mono fun b hb => List.mem_cons_of_mem _ hb
  removed hc h hp hg := h.removed hc hp hg
  failed _ h := (h.mono fun b hb => List.mem_cons_of_mem _ hb).record rfl rfl
  published hc h hroom := h.published hc hroom
  succeeded _ h := h.record rfl rfl

theorem departures_play {c : IdentityConfiguration} {place : DataPlace} (h : new c place = .ok s)
    (moves : List Move) : (s.play moves).Departures s.graph (s.play moves).jobs := by
  obtain ⟨r, -, blank⟩ := blank_of_new h
  have start : s.Departures s.graph s.jobs := by
    have gone (id : PartyId) : s.graph.isGone id = false :=
      blank.graph ▸ Graph.isGone_ofResolved r
    constructor
    case apart =>
      refine ⟨by rw [blank.journal]; rfl, fun j hj id hid => ?_⟩
      rw [blank.journal] at hj
      rw [List.suffix_nil.mp hj] at hid
      exact absurd ((gone id).symm.trans hid) (by simp)
    case tidy => exact blank.graph ▸ Graph.tidy_ofResolved r
    case told => exact fun id => by simp [events_eq, blank.journal]
    case waiting => exact fun b hb => by simp [blank.jobs] at hb
  exact ((steady_departures s.graph).play_new h start moves).2

end Service

end PartyGraph
