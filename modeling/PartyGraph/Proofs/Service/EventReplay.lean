import PartyGraph.Proofs.Service.CallOrder
import PartyGraph.Proofs.Service.Steady

/-!
# Replaying what is told of parties

Whoever receives the channel of all parties can keep a list of those present: who appears is put
into it and who disappears is taken out. The list is the same as the graph as long as nobody
appears who is present or disappears who is not, and nobody appears who does not come into the
graph.

The service tells what it does to a list without looking whether that list is in the graph. A
batch that belongs to a tenant domain outside of the graph is told to appear, and a party that is
not in the graph is told to disappear when it is destroyed. Both are possible, since the parties
of an addition are handed to drivers before they are put into the graph, and are not put there
when the addition fails. The result says that nothing else can go wrong: the replay agrees with
the graph throughout a history exactly if all messages that the agent handles are about parties in
the graph (`Service.Grounded`).

## Main definitions

* `PartyEvent.replay`: those present after changes.
* `Service.events`: the changes told on the channel of all parties.
* `Service.Agrees`, `Service.EventsAgree`: the replay agrees with the graph, now and throughout.
* `Service.Grounded`: a message is about parties in the graph.

## Main results

* `Service.agrees_publish`, `Service.agrees_removeParty`: when the agreement is kept.
* `Service.Handled.agrees`, `Service.Moved.agrees`: handling a message keeps it exactly if the
  message is about parties in the graph.
-/

namespace PartyGraph

/-! ### Replay -/

/-- The change that a signal tells, if it tells one. -/
def Signal.change? : Signal → Option PartyEvent
  | .party e => some e
  | .beat _ => none

namespace PartyEvent

variable {present : List PartyId} {ids : List PartyId}

/-- Those present after a change, unless someone appears who is present or disappears who is not. -/
def replayOne (present : List PartyId) : PartyEvent → Option (List PartyId)
  | appeared id => if id ∈ present then none else some (present ++ [id])
  | disappeared id => if id ∈ present then some (present.filter (· ≠ id)) else none

/-- Those present after changes, one after the other. -/
def replay (present : List PartyId) (es : List PartyEvent) : Option (List PartyId) :=
  es.foldlM replayOne present

theorem replay_append (present : List PartyId) (es es' : List PartyEvent) :
    replay present (es ++ es') = (replay present es).bind fun p => replay p es' :=
  List.foldlM_append

theorem replay_appeared (hn : ids.Nodup) (hno : ∀ id ∈ ids, id ∉ present) :
    replay present (ids.map appeared) = some (present ++ ids) := by
  induction ids generalizing present with
  | nil => simp [replay]
  | cons id ids ih =>
    rw [List.nodup_cons] at hn
    rw [List.forall_mem_cons] at hno
    have hrest : ∀ i ∈ ids, i ∉ present ++ [id] := by
      intro i hi hmem
      rcases List.mem_append.mp hmem with hmem | hmem
      · exact hno.2 i hi hmem
      · exact hn.1 (List.mem_singleton.mp hmem ▸ hi)
    have := ih hn.2 hrest
    rw [List.append_assoc] at this
    simpa [replay, replayOne, hno.1] using this

theorem replay_disappeared (hn : ids.Nodup) (hmem : ∀ id ∈ ids, id ∈ present) :
    replay present (ids.map disappeared) = some (present.filter (· ∉ ids)) := by
  induction ids generalizing present with
  | nil => simp [replay]
  | cons id ids ih =>
    rw [List.nodup_cons] at hn
    rw [List.forall_mem_cons] at hmem
    have hrest : ∀ i ∈ ids, i ∈ present.filter (· ≠ id) := fun i hi =>
      List.mem_filter.mpr ⟨hmem.2 i hi, decide_eq_true fun heq => hn.1 (heq ▸ hi)⟩
    have hfilter : (present.filter (· ≠ id)).filter (· ∉ ids)
        = present.filter (· ∉ id :: ids) := by
      rw [List.filter_filter]
      exact List.filter_congr fun i _ => by simp [Bool.and_comm]
    have := ih hn.2 hrest
    rw [hfilter] at this
    simpa [replay, replayOne, hmem.1] using this

/-- Nobody disappears who was not present. -/
theorem mem_of_replay_disappeared {p : List PartyId}
    (h : replay present (ids.map disappeared) = some p) : ∀ id ∈ ids, id ∈ present := by
  induction ids generalizing present with
  | nil => simp
  | cons id ids ih =>
    rw [List.map_cons, replay, List.foldlM_cons, replayOne] at h
    by_cases hid : id ∈ present
    · rw [if_pos hid] at h
      exact List.forall_mem_cons.mpr ⟨hid, fun i hi => List.mem_of_mem_filter (ih h i hi)⟩
    · rw [if_neg hid] at h
      cases h

end PartyEvent

/-! ### What is told -/

/-- The change that an entry tells on the channel of all parties, if it does. -/
def Entry.event? : Entry → Option PartyEvent
  | .told .all signal => signal.change?
  | _ => none

theorem Entry.OfRequest.event?_eq_none {e : Entry} (h : e.OfRequest) : e.event? = none := by
  cases e <;> first | rfl | cases h

namespace Service

variable {s s' : Service} {start : List PartyId} {ids : List PartyId}

/-- All changes told on the channel of all parties, in order. -/
def events (s : Service) : List PartyEvent := (s.signals .all).filterMap Signal.change?

theorem events_eq (s : Service) : s.events = s.journal.reverse.filterMap Entry.event? := by
  rw [events, signals, List.filterMap_filterMap]
  congr 1
  funext e
  cases e with
  | told channel signal => cases channel <;> simp [Entry.event?]
  | _ => rfl

@[simp] theorem events_record (s : Service) (e : Entry) :
    (s.record e).events = s.events ++ e.event?.toList := by
  rw [events_eq, events_eq]
  exact filterMap_journal_cons Entry.event? e s.journal

theorem events_of_journal {new : List Entry} (hj : s'.journal = new ++ s.journal)
    (hnew : ∀ e ∈ new, e.event? = none) : s'.events = s.events := by
  rw [events_eq, events_eq, hj, filterMap_journal_append hnew]

@[simp] theorem events_change (s : Service) (c : GraphChange) : (s.change c).events = s.events := by
  have : (s.change c).events = s.events ++ [] := events_record { s with graph := s.graph.apply c } _
  simpa using this

@[simp] theorem events_tellOfRemote (s : Service) (owner : PartyRef) (e : PartyEvent) :
    (s.tellOfRemote owner e).events = s.events ++ [e] := by
  simp [tellOfRemote, tell, Entry.event?, Signal.change?]

theorem Works.events {calls : List DriverCall} (h : s.Works calls s') : s'.events = s.events := by
  refine h.induction (P := fun t => t.events = s.events) (fun t t' ht ha => ?_)
    (fun t c ht => by rw [events_record, ht]; exact List.append_nil _) rfl
  obtain ⟨new, hnew, -, hall⟩ := ha.journal
  exact (events_of_journal hnew fun e he => (hall e he).event?_eq_none).trans ht

theorem events_answerDropped (s : Service) (jobs : List IdentityJob) :
    (s.answerDropped jobs).events = s.events := by
  induction jobs generalizing s with
  | nil => rfl
  | cons j jobs ih =>
    refine (ih _).trans ?_
    cases j with
    | add b => exact (events_record s _).trans (List.append_nil _)
    | destroy id => rfl

/-! ### Agreement -/

/-- Whether the changes told so far can be replayed, starting with the parties of `start`, and give
the parties of the graph. -/
def Agrees (start : List PartyId) (s : Service) : Prop :=
  ∃ present, PartyEvent.replay start s.events = some present ∧
    ∀ id, id ∈ present ↔ id ∈ s.graph.allParties

theorem agrees_congr (he : s'.events = s.events) (hg : s'.graph.allParties = s.graph.allParties) :
    Agrees start s' ↔ Agrees start s := by
  rw [Agrees, Agrees, he, hg]

theorem agrees_record {e : Entry} (he : e.event? = none) :
    Agrees start (s.record e) ↔ Agrees start s :=
  agrees_congr (by simp [he]) rfl

/-- When those appear who were absent, it matters whether they have come into the graph. -/
theorem agrees_appeared (h : Agrees start s) (he : s'.events = s.events ++ ids.map .appeared)
    (hn : ids.Nodup) (hno : ∀ id ∈ ids, id ∉ s.graph.allParties) :
    Agrees start s' ↔
      ∀ id, id ∈ s'.graph.allParties ↔ id ∈ s.graph.allParties ∨ id ∈ ids := by
  obtain ⟨present, hreplay, hmem⟩ := h
  have hreplay' : PartyEvent.replay start s'.events = some (present ++ ids) := by
    rw [he, PartyEvent.replay_append, hreplay]
    exact PartyEvent.replay_appeared hn fun id hid hp => hno id hid ((hmem id).mp hp)
  simp only [Agrees, hreplay', Option.some.injEq, exists_eq_left', List.mem_append, hmem]
  exact forall_congr' fun id => iff_comm

/-- When those disappear who have left the graph, it matters whether they were in it. -/
theorem agrees_disappeared (h : Agrees start s)
    (he : s'.events = s.events ++ ids.map .disappeared)
    (hn : (∀ id ∈ ids, id ∈ s.graph.allParties) → ids.Nodup)
    (hg : ∀ id, id ∈ s'.graph.allParties ↔ id ∈ s.graph.allParties ∧ id ∉ ids) :
    Agrees start s' ↔ ∀ id ∈ ids, id ∈ s.graph.allParties := by
  obtain ⟨present, hreplay, hmem⟩ := h
  have hreplay' : PartyEvent.replay start s'.events
      = PartyEvent.replay present (ids.map .disappeared) := by
    rw [he, PartyEvent.replay_append, hreplay]
    rfl
  constructor
  · rintro ⟨p, hp, -⟩ id hid
    rw [hreplay'] at hp
    exact (hmem id).mp (PartyEvent.mem_of_replay_disappeared hp id hid)
  · intro hin
    have hpresent : ∀ id ∈ ids, id ∈ present := fun id hid => (hmem id).mpr (hin id hid)
    refine ⟨_, hreplay'.trans (PartyEvent.replay_disappeared (hn hin) hpresent), fun id => ?_⟩
    rw [List.mem_filter, hmem, hg, decide_eq_true_iff]

/-! ### Batches put into the graph -/

theorem events_tellOfRemotes (s : Service) (owner : PartyRef) (e : PartyId → PartyEvent)
    (rs : List PartyId) :
    (rs.foldl (fun s r => s.tellOfRemote owner (e r)) s).events = s.events ++ rs.map e := by
  induction rs generalizing s with
  | nil => simp
  | cons r rs ih => simp [ih]

theorem events_publishRemote (s : Service) (owner : PartyRef) (id : PartyId) :
    (s.publishRemote owner id).events = s.events ++ [.appeared id] := by
  simp [publishRemote]

theorem events_publishTenant {id : PartyId} (ht : s.graph.IsTenant id) :
    (s.publishTenant id).events
      = s.events ++ (id :: s.graph.remotesOf (.owned id)).map .appeared := by
  have hlist : (s.graph.apply (.insert id)).remotesOf (.owned id)
      = s.graph.remotesOf (.owned id) := by
    rw [Graph.apply_insert_tenant ht]
    rfl
  rw [publishTenant]
  rw [events_tellOfRemotes]
  simp [tell, Entry.event?, Signal.change?, hlist]

section Publication

variable {b : Batch}

/-- All parties of a batch are told to appear. -/
theorem events_publish (hb : b.Fits s.graph) (hs : s.graph.Sound)
    (hroom : s.graph.Room (b.family s.graph)) :
    (s.publish b).events = s.events ++ (b.family s.graph).map .appeared := by
  have := (publish_induction (P := fun rest t =>
      t.events ++ rest.map .appeared = s.events ++ (b.family s.graph).map .appeared) hb hs hroom
    (fun id rest t _ _ ht => ?_) (fun id rest t hid hp ht => ?_) rfl).2
  · simpa using this
  · rw [events_publishRemote, ← ht]
    simp
  · have htenant : t.graph.IsTenant id := (hb.tenants id hid).congr (hp.origin id)
    rw [events_publishTenant htenant, hp.nested hb hid, ← ht]
    simp

/-- They come into the graph when the owner is in it. -/
theorem mem_publish (hb : b.Fits s.graph) (hs : s.graph.Sound)
    (hroom : s.graph.Room (b.family s.graph)) (hroot : s.graph.Rooted b.owner) (x : PartyId) :
    x ∈ (s.publish b).graph.allParties ↔ x ∈ s.graph.allParties ∨ x ∈ b.family s.graph := by
  have := (publish_induction (P := fun rest t => t.graph.Rooted b.owner ∧
      (x ∈ t.graph.allParties ∨ x ∈ rest ↔ x ∈ s.graph.allParties ∨ x ∈ b.family s.graph))
    hb hs hroom (fun id rest t hid hp ht => ?_) (fun id rest t hid hp ht => ?_)
    ⟨hroot, Iff.rfl⟩).2.2
  · simpa using this
  · have hremote : t.graph.IsRemote b.owner id := (hb.remotes id hid).congr (hp.origin id)
    have perm := Graph.perm_insert_remote hremote (hp.owner hb) ht.1
      (Graph.nodup_tenants hp.room.keys_nodup)
    rw [graph_publishRemote]
    refine ⟨(Graph.Rooted.insert_remote hremote).mpr ht.1, ?_⟩
    rw [perm.mem_iff, ← ht.2, List.mem_cons, List.mem_cons, or_assoc, or_left_comm]
  · have htenant : t.graph.IsTenant id := (hb.tenants id hid).congr (hp.origin id)
    rw [graph_publishTenant]
    refine ⟨?_, ?_⟩
    · rw [hb.rootOnly (List.ne_nil_of_mem hid)]
      trivial
    · rw [Graph.allParties_insert_tenant htenant, hp.nested hb hid, ← ht.2]
      simp only [List.mem_append, or_assoc]

/-- None of them does when it is not. -/
theorem allParties_publish (hb : b.Fits s.graph) (hs : s.graph.Sound)
    (hroom : s.graph.Room (b.family s.graph)) (hroot : ¬ s.graph.Rooted b.owner) :
    (s.publish b).graph.allParties = s.graph.allParties := by
  refine (publish_induction (P := fun _ t => ¬ t.graph.Rooted b.owner ∧
      t.graph.allParties = s.graph.allParties)
    hb hs hroom (fun id rest t hid hp ht => ?_) (fun id rest t hid _ _ => ?_) ⟨hroot, rfl⟩).2.2
  · have hremote : t.graph.IsRemote b.owner id := (hb.remotes id hid).congr (hp.origin id)
    rw [graph_publishRemote, Graph.Rooted.insert_remote hremote,
      Graph.allParties_insert_remote_of_not_rooted hremote (hp.owner hb) ht.1]
    exact ht
  · rw [hb.rootOnly (List.ne_nil_of_mem hid)] at hroot
    exact absurd trivial hroot

/-- The agreement is kept exactly if the owner is in the graph. -/
theorem agrees_publish {n m : Nat} (h : Agrees start s) (hb : b.Ready s n m) (hs : s.graph.Sound)
    (hroom : s.graph.Room (b.family s.graph)) :
    Agrees start (s.publish b) ↔ s.graph.Rooted b.owner := by
  obtain ⟨hnodup, hno⟩ := hroom.not_mem
  rw [agrees_appeared h (events_publish hb.fits hs hroom) hnodup hno]
  refine ⟨fun hmem => Classical.byContradiction fun hroot => ?_,
    fun hroot => mem_publish hb.fits hs hroom hroot⟩
  obtain ⟨id, hid⟩ := List.exists_mem_of_ne_nil _ hb.nonempty
  have hfamily : id ∈ b.family s.graph := Batch.mem_family.mpr (.inl hid)
  refine hno id hfamily ?_
  rw [← allParties_publish hb.fits hs hroom hroot]
  exact (hmem id).mpr (.inr hfamily)

end Publication

/-! ### Parties taken out of the graph -/

section Removal

variable {id : PartyId} {p : OwnedParty}

/-- Those who leave with a party, and the party itself. -/
def departing (g : Graph) (id : PartyId) (p : OwnedParty) : List PartyId :=
  (if p.isTenant then g.remotesOf (.owned id) else []) ++ [id]

theorem events_removeParty (hp : s.graph.party? id = some p) :
    (s.removeParty id p).events = s.events ++ (departing s.graph id p).map .disappeared := by
  have fold (s : Service) (rs : List PartyId) :
      (rs.foldl (fun s r => (s.tellOfRemote (.owned id) (.disappeared r)).change (.complete r))
        s).events = s.events ++ rs.map .disappeared := by
    induction rs generalizing s with
    | nil => simp
    | cons r rs ih => simp [ih]
  rw [removeParty, departing]
  cases hk : p.isTenant with
  | true =>
    have hlist : (s.graph.apply (.remove id)).remotesOf (.owned id)
        = s.graph.remotesOf (.owned id) := by
      rw [Graph.apply_remove_tenant (Graph.isTenant_of_party? hp hk)]
      rfl
    simp [removeTenant, tell, fold, Entry.event?, Signal.change?, hlist]
  | false => simp [removeRemote]

theorem mem_removeParty (hs : s.graph.Sound) (hp : s.graph.party? id = some p) (x : PartyId) :
    x ∈ (s.removeParty id p).graph.allParties ↔
      x ∈ s.graph.allParties ∧ x ∉ departing s.graph id p := by
  rw [(alike_removeParty s id p).allParties, departing]
  cases hk : p.isTenant with
  | true =>
    have ht := Graph.isTenant_of_party? hp hk
    rw [Graph.without_tenant hk, Graph.allParties_clear (Graph.not_mem_remove_tenant ht),
      Graph.mem_remove_tenant hs ht]
    simp [not_or, and_comm]
  | false =>
    rw [Graph.without_remote hk, Graph.allParties_remove_remote hs (Graph.isRemote_of_party? hp hk)]
    simp

/-- A tenant domain in the graph has its remote parties there. -/
theorem departing_sublist (hs : s.graph.Sound) (hp : s.graph.party? id = some p)
    (hid : id ∈ s.graph.allParties) :
    ∃ l : List PartyId, l.Perm (departing s.graph id p) ∧ l.Sublist s.graph.allParties := by
  rw [departing]
  cases hk : p.isTenant with
  | true =>
    have ht := Graph.isTenant_of_party? hp hk
    exact ⟨_, (List.perm_append_singleton _ _).symm,
      Graph.sublist_of_mem_tenants ((hs.mem_allParties_tenant ht).mp hid)⟩
  | false => exact ⟨[id], .refl _, List.singleton_sublist.mpr hid⟩

/-- The agreement is kept exactly if the party was in the graph. -/
theorem agrees_removeParty (h : Agrees start s) (hs : s.graph.Sound) (hn : s.graph.keys.Nodup)
    (hp : s.graph.party? id = some p) :
    Agrees start (s.removeParty id p) ↔ id ∈ s.graph.allParties := by
  have hlast : id ∈ departing s.graph id p := List.mem_append_right _ List.mem_cons_self
  have all (hid : id ∈ s.graph.allParties) :
      (departing s.graph id p).Nodup ∧ ∀ i ∈ departing s.graph id p, i ∈ s.graph.allParties := by
    obtain ⟨l, hperm, hsub⟩ := departing_sublist hs hp hid
    exact ⟨hperm.nodup_iff.mp (hsub.nodup (Graph.nodup_allParties hn)),
      fun i hi => hsub.subset (hperm.mem_iff.mpr hi)⟩
  rw [agrees_disappeared h (events_removeParty hp) (fun hin => (all (hin id hlast)).1)
    (mem_removeParty hs hp)]
  exact ⟨fun hin => hin id hlast, fun hid => (all hid).2⟩

end Removal

/-! ### Histories -/

/-- Whether a message that finds the service `s` is about parties in the graph: an addition that
succeeds belongs to an owner in the graph, and a party that is to be destroyed is in it. -/
def Grounded (s : Service) : Agent.Call IdentityJob → Prop
  | .job (.add b) => s.dropped = false → (s.addBatch b).1 = .ok () → s.graph.Rooted b.owner
  | .job (.destroy id) => s.dropped = false → s.graph.isGone id = false → id ∈ s.graph.allParties
  | _ => True

variable {g₀ : Graph}

theorem Works.agrees {calls : List DriverCall} (h : s.Works calls s') (hs : s.graph.Sound) :
    Agrees start s' ↔ Agrees start s :=
  agrees_congr h.events (h.graph_extends.allParties hs)

/-- Handling a message keeps the agreement exactly if the message is about parties in the graph. -/
theorem Handled.agrees {c : Agent.Call IdentityJob} (h : s.Handled c s')
    (hc : Coherent g₀ (.ofCall c) s.jobs s) (ha : Agrees start s) :
    Agrees start s' ↔ s.Grounded c := by
  have begun {hook : Hook} {targets : List PartyId} {calls : List DriverCall} {s₁ : Service}
      (hw : (s.record (.passBegun hook targets)).Works calls s₁) : Agrees start s₁ :=
    (hw.agrees hc.sound).mpr ((agrees_record rfl).mpr ha)
  have answered {s₁ : Service} (t : Nat) (o : Except IdentityError Unit) :
      Agrees start (s₁.answer t o) ↔ Agrees start s₁ := agrees_record rfl
  cases h with
  | idle hd hadd =>
    cases c with
    | job j =>
      cases j with
      | add b => exact absurd rfl (hadd b)
      | destroy id => simp [Grounded, hd, ha]
    | start | heartbeat | stop => simpa [Grounded] using ha
  | @started s₁ hd works i =>
    have h₁ : Agrees start s₁ := begun works
    have : Agrees start ({ s₁ with initialization := i }.record (.initialized i)) :=
      (agrees_record rfl).mpr h₁
    simpa [Grounded] using this
  | beat hd count =>
    have : Agrees start (s.tell .heartbeat (.beat count)) := (agrees_record rfl).mpr ha
    simpa [Grounded] using this
  | stopped hd works => simpa [Grounded] using begun works
  | orphaned hd b => simpa [Grounded, hd, answered] using ha
  | refused hd hr hb => simpa [Grounded, hb, answered] using ha
  | failed hd hr hb works => simpa [Grounded, hb, answered] using begun works
  | @added b s₁ s₂ hd hr hb works after =>
    have hroom := hc.room_family hr works
    have held := (steady_true g₀).held_pass ⟨hc, trivial⟩ works
    obtain ⟨n, m, ready⟩ := held.1.ready
    have hsound : (s₁.publish b).graph.Sound := (held.1.published hroom).sound
    have he : Graph.Extends s.graph s₁.graph := works.graph_extends
    rw [answered, after.agrees hsound, agrees_publish (begun works) ready held.1.sound hroom,
      he.rooted]
    simp [Grounded, hd, hb]
  | gone hd hg => simp [Grounded, hg, ha]
  | missing hd hg works hp => exact absurd hp (hc.party?_ne_none works.graph_extends)
  | @destroyed id s₁ p hd hg works hp =>
    have held := (steady_true g₀).held_pass ⟨hc, trivial⟩ works
    have he : Graph.Extends s.graph s₁.graph := works.graph_extends
    rw [agrees_removeParty (begun works) held.1.sound held.1.nodup hp, he.allParties hc.sound]
    simp [Grounded, hd, hg]

theorem Moved.agrees {h? : Option (Service × Agent.Call IdentityJob)} (h : s.Moved h? s')
    (hc : Coherent g₀ .free s.jobs s) (ha : Agrees start s) :
    Agrees start s' ↔ ∀ x ∈ h?.toList, x.1.Grounded x.2 := by
  have dropped (s : Service) (jobs : List IdentityJob) :
      Agrees start (s.answerDropped jobs) ↔ Agrees start s :=
    agrees_congr (events_answerDropped s jobs) (congrArg _ (graph_answerDropped s jobs))
  cases h with
  | works hw => exact iff_of_true ((hw.agrees hc.sound).mpr ha) (by simp)
  | installed hw hf d =>
    have h₁ := (hw.agrees hc.sound).mpr ha
    exact iff_of_true h₁ (by simp)
  | released hd hl => exact iff_of_true ha (by simp)
  | abandoned hd hl | exited he => exact iff_of_true ((dropped _ _).mpr ha) (by simp)
  | @handled c a s₁ ht hh =>
    have taken : Agrees start ({ s with agent := a }.record (.handling c)) :=
      (agrees_record rfl).mpr ha
    rw [Option.toList_some, List.forall_mem_singleton]
    exact hh.agrees (hc.taken ht) taken

/-- Whether the changes told so far agree with the graph, at every point between two moves of a
history. -/
def EventsAgree (s₀ : Service) (moves : List Move) : Prop :=
  ∀ n, Agrees s₀.graph.allParties (s₀.play (moves.take n))

theorem eventsAgree_concat {s₀ : Service} {moves : List Move} {m : Move} :
    s₀.EventsAgree (moves ++ [m]) ↔
      s₀.EventsAgree moves ∧ Agrees s₀.graph.allParties (s₀.play (moves ++ [m])) := by
  constructor
  · refine fun h => ⟨fun n => ?_, ?_⟩
    · have := h (min n moves.length)
      rw [List.take_append_of_le_length (Nat.min_le_right ..)] at this
      rwa [List.take_eq_take_min]
    · have := h (moves.length + 1)
      rwa [List.take_of_length_le (by simp)] at this
  · rintro ⟨h, hlast⟩ n
    by_cases hn : n ≤ moves.length
    · rw [List.take_append_of_le_length hn]
      exact h n
    · rw [List.take_of_length_le (by simp; omega)]
      exact hlast

/-- **When the changes told agree with the graph.** In a history of a new service they do so
throughout exactly if all messages that the agent has handled are about parties in the graph. -/
theorem eventsAgree_iff {c : IdentityConfiguration} {place : DataPlace} {s₀ : Service}
    (h : new c place = .ok s₀) (moves : List Move) :
    s₀.EventsAgree moves ↔ ∀ x ∈ s₀.handled moves, x.1.Grounded x.2 := by
  induction moves using List.reverseRecOn with
  | nil =>
    obtain ⟨r, -, blank⟩ := blank_of_new h
    have hnone : s₀.events = [] := by simp [events_eq, blank.journal]
    have : Agrees s₀.graph.allParties s₀ := ⟨_, by rw [hnone]; rfl, fun _ => Iff.rfl⟩
    simpa [EventsAgree, handled, play] using this
  | append_singleton moves m ih =>
    rw [eventsAgree_concat, handled_concat]
    simp only [List.mem_append, or_imp, forall_and]
    rw [← ih]
    refine and_congr_right fun hagree => ?_
    have coherent := coherent_play h moves
    have last : Agrees s₀.graph.allParties (s₀.play moves) := by
      have := hagree moves.length
      rwa [List.take_length] at this
    rw [play_concat]
    exact (moved_move coherent.orderly m).agrees coherent last

/-- A remote party is added and destroyed. -/
theorem eventsAgree_iff_of_destruction :
    ∃ s₀, new .default ⟨"/home", none⟩ = .ok s₀ ∧
      (s₀.EventsAgree [.request .start, .deliver,
          .request (.add .root .any { PartySection.blank with partyName := some "R" }), .deliver,
          .request (.destroy 0), .deliver] ↔
        ∀ x ∈ s₀.handled [.request .start, .deliver,
          .request (.add .root .any { PartySection.blank with partyName := some "R" }), .deliver,
          .request (.destroy 0), .deliver], x.1.Grounded x.2) := by
  obtain ⟨s₀, h⟩ := exists_new_default
  exact ⟨s₀, h, eventsAgree_iff h _⟩

/-- A driver that asks for the destruction of whatever is about to be added, and then fails. -/
def spoiler (_ : Binding) (call : HookCall) : DriverScript :=
  match call.hook, call.target with
  | .setupDynamic, some id =>
    .ask (.request (.destroy id)) fun _ => .finish (.failed (.failed "no"))
  | _, _ => .finish .succeeded

/-- A remote party is added, which such a driver spoils, and then the destruction is handled. -/
def spoiled : List Move :=
  [.register "AlphaFeatureDriver" true [] spoiler, .request .start, .deliver,
    .request (.add .root .any { PartySection.blank with partyName := some "R" }), .deliver,
    .deliver]

/-- The party is told to disappear without having been told to appear. -/
theorem not_eventsAgree_spoiled :
    ∃ s₀, new .default ⟨"/home", none⟩ = .ok s₀ ∧ ¬ s₀.EventsAgree spoiled := by
  obtain ⟨s₀, h⟩ := exists_new_default
  have hreplay : (new .default ⟨"/home", none⟩).toOption.map (fun s =>
      PartyEvent.replay s.graph.allParties (s.play spoiled).events) = some none := by
    decide +kernel
  rw [h] at hreplay
  refine ⟨s₀, h, fun hagree => ?_⟩
  obtain ⟨present, hpresent, -⟩ := hagree spoiled.length
  rw [List.take_length] at hpresent
  rw [Except.toOption, Option.map_some, hpresent] at hreplay
  cases hreplay

end Service

end PartyGraph
