import PartyGraph.Proofs.Service.Underway

/-!
# The order of changes told

A tenant domain is told to appear before its remote parties and to disappear after them. There are
two ways to appear for a remote party, with its tenant domain and later in a batch of its own, and
two ways to disappear, by its own destruction and with its tenant domain. The order is the same in
all four, because the agent handles one job after the other:

* A batch that belongs to a tenant domain was posted after the one in which the domain was made, so
  it is behind it in line.
* No batch is put into the list of a tenant domain that is gone: the owner of a batch is looked at
  when its pass begins, and nobody goes while a pass is under way.

Every change of a remote party is told on the channel of its owner and on that of all parties, one
right after the other. So each channel of an owner has the changes of its remote parties in the same
order as the channel of all (`Service.Projected`).

## Main definitions

* `Service.changes`: the changes told on a channel.
* `Leads`, `Closes`: orders within a list of changes.
* `Service.EventsFit`: what is kept, with the jobs in line.
* `Service.EventsInOrder`: the order of changes.

## Main results

* `Service.listed_publish`: who is in a list after a batch was put into the graph.
* `Service.EventsFit.leads_appeared`, `Service.EventsFit.closes_appeared`,
  `Service.EventsFit.closes_disappeared`: the order when a batch appears and when parties disappear.
* `Service.EventsFit.published`, `Service.EventsFit.removed`: what can happen.
* `Service.eventsInOrder`: any history.
-/

namespace PartyGraph

/-! ### Orders within lists -/

theorem split_append {α : Type} {xs ys l l' : List α} {a : α} (h : xs ++ ys = l ++ a :: l') :
    (∃ m, xs = l ++ a :: m ∧ l' = m ++ ys) ∨ ∃ m, ys = m ++ a :: l' ∧ l = xs ++ m := by
  rcases List.append_eq_append_iff.mp h with ⟨m, hl, hys⟩ | ⟨m, hxs, hrest⟩
  · exact .inr ⟨m, hys, hl⟩
  · cases m with
    | nil => exact .inr ⟨[], hrest.symm, by rw [hxs, List.append_nil, List.append_nil]⟩
    | cons b m =>
      obtain ⟨rfl, rfl⟩ := List.cons.inj hrest
      exact .inl ⟨m, hxs, rfl⟩

/-- Whether `a` comes before every `b` of a list. -/
def Leads (es : List PartyEvent) (a b : PartyEvent) : Prop :=
  ∀ l l', es = l ++ b :: l' → a ∈ l

/-- Whether before every `disappeared t` of a list `r` has disappeared, and there is no change of
`r` after it. -/
def Closes (es : List PartyEvent) (t r : PartyId) : Prop :=
  ∀ l l', es = l ++ .disappeared t :: l' → .disappeared r ∈ l ∧ ∀ e ∈ l', e.party ≠ r

theorem Leads.append {es new : List PartyEvent} {a b : PartyEvent} (h : Leads es a b)
    (hnew : ∀ l l', new = l ++ b :: l' → a ∈ es ++ l) : Leads (es ++ new) a b := by
  intro l l' hsplit
  rcases split_append hsplit with ⟨m, hes, -⟩ | ⟨m, hm, rfl⟩
  · exact h l m hes
  · exact hnew m l' hm

theorem Closes.append {es new : List PartyEvent} {t r : PartyId} (h : Closes es t r)
    (hafter : .disappeared t ∈ es → ∀ e ∈ new, e.party ≠ r)
    (hnew : ∀ l l', new = l ++ .disappeared t :: l' →
      .disappeared r ∈ es ++ l ∧ ∀ e ∈ l', e.party ≠ r) : Closes (es ++ new) t r := by
  intro l l' hsplit
  rcases split_append hsplit with ⟨m, hes, rfl⟩ | ⟨m, hm, rfl⟩
  · obtain ⟨hmem, hlast⟩ := h l m hes
    refine ⟨hmem, fun e he => ?_⟩
    rcases List.mem_append.mp he with he | he
    · exact hlast e he
    · exact hafter (hes ▸ List.mem_append_right _ List.mem_cons_self) e he
  · exact hnew m l' hm

/-- In a list of consecutive numbers, a number that is smaller than another comes before it. -/
theorem mem_of_split_range' {n k a b : Nat} {l l' : List Nat}
    (h : List.range' n k = l ++ b :: l') (ha : a ∈ List.range' n k) (hlt : a < b) : a ∈ l := by
  have hpair : (l ++ b :: l').Pairwise (· < ·) := h ▸ List.pairwise_lt_range'
  rw [h, List.mem_append, List.mem_cons] at ha
  rcases ha with ha | rfl | ha
  · exact ha
  · exact absurd hlt (Nat.lt_irrefl _)
  · have hba := List.rel_of_pairwise_cons (List.pairwise_append.mp hpair).2.1 ha
    exact absurd hlt (Nat.lt_asymm hba)

theorem PartyEvent.of_mem_appeared {ids : List PartyId} {e : PartyEvent}
    (h : e ∈ ids.map .appeared) : e.party ∈ ids ∧ e = .appeared e.party := by
  obtain ⟨id, hid, rfl⟩ := List.mem_map.mp h
  exact ⟨hid, rfl⟩

theorem PartyEvent.of_mem_disappeared {ids : List PartyId} {e : PartyEvent}
    (h : e ∈ ids.map .disappeared) : e.party ∈ ids ∧ e = .disappeared e.party := by
  obtain ⟨id, hid, rfl⟩ := List.mem_map.mp h
  exact ⟨hid, rfl⟩

namespace Graph

variable {g g' : Graph} {owner : PartyRef} {id : PartyId}

/-- Whether a party was made as a remote party of an owner. -/
def isRemoteOf (g : Graph) (owner : PartyRef) (id : PartyId) : Bool :=
  ((g.party? id).map fun p => !p.isTenant && decide (p.owner = owner)).getD false

theorem isRemoteOf_iff : g.isRemoteOf owner id = true ↔ g.IsRemote owner id := by
  cases hp : g.party? id with
  | none => simp [isRemoteOf, IsRemote, origin?, hp]
  | some p => simp [isRemoteOf, IsRemote, origin?, hp, OwnedParty.isTenant, and_comm]

theorem isRemoteOf_congr (h : g'.origin? id = g.origin? id) :
    g'.isRemoteOf owner id = g.isRemoteOf owner id := by
  rw [Bool.eq_iff_iff, isRemoteOf_iff, isRemoteOf_iff]
  exact ⟨fun hr => hr.congr h.symm, fun hr => hr.congr h⟩

theorem isRemoteOf_eq_decide {o : PartyRef} (h : g.IsRemote owner id) :
    g.isRemoteOf o id = decide (owner = o) := by
  rw [Bool.eq_iff_iff, isRemoteOf_iff, decide_eq_true_iff]
  exact ⟨h.owner_unique, fun ho => ho ▸ h⟩

theorem isRemoteOf_of_isTenant (h : g.IsTenant id) : g.isRemoteOf owner id = false :=
  Bool.eq_false_iff.mpr fun hr => not_isTenant_of_isRemote (isRemoteOf_iff.mp hr) h

theorem Extends.listed (h : Extends g g') (hl : g.Listed id) : g'.Listed id := by
  rcases hl with hl | ⟨o, hl⟩
  · exact .inl (h.tenants ▸ hl)
  · refine .inr ⟨o, ?_⟩
    rw [h.remotesOf o]
    · exact hl
    · rintro t rfl
      exact lt_of_mem_remotesOf hl

end Graph

/-- The change that an entry tells on a channel, if it does. -/
def Entry.changeOn? (channel : Channel) : Entry → Option PartyEvent
  | .told c signal => if c = channel then signal.change? else none
  | _ => none

theorem Entry.OfRequest.changeOn?_eq_none {e : Entry} {channel : Channel} (h : e.OfRequest) :
    e.changeOn? channel = none := by
  cases e <;> first | rfl | cases h

theorem Entry.IsPlain.changeOn?_eq_none {e : Entry} {owner : PartyRef} (h : e.IsPlain) :
    e.changeOn? (.remotesOf owner) = none := by
  cases e with
  | told channel signal => cases channel <;> first | rfl | cases h
  | _ => rfl

namespace Service

variable {s s' : Service} {g g₀ : Graph} {line line' : List IdentityJob} {id : PartyId}

/-! ### Channels -/

/-- All changes told on a channel, in order. -/
def changes (s : Service) (channel : Channel) : List PartyEvent :=
  (s.signals channel).filterMap Signal.change?

theorem changes_eq (s : Service) (channel : Channel) :
    s.changes channel = s.journal.reverse.filterMap (Entry.changeOn? channel) := by
  rw [changes, signals, List.filterMap_filterMap]
  congr 1
  funext e
  cases e with
  | told c signal => by_cases hc : c = channel <;> simp [Entry.changeOn?, hc]
  | _ => rfl

theorem changes_append (new : List Entry) {channel : Channel}
    (hj : s'.journal = new ++ s.journal) (hnew : ∀ e ∈ new, e.changeOn? channel = none) :
    s'.changes channel = s.changes channel := by
  rw [changes_eq, changes_eq, hj, filterMap_journal_append hnew]

@[simp] theorem changes_record (s : Service) (e : Entry) (channel : Channel) :
    (s.record e).changes channel = s.changes channel ++ (e.changeOn? channel).toList := by
  rw [changes_eq, changes_eq]
  exact filterMap_journal_cons (Entry.changeOn? channel) e s.journal

@[simp] theorem changes_change (s : Service) (c : GraphChange) (channel : Channel) :
    (s.change c).changes channel = s.changes channel :=
  changes_append [.changed c] rfl (by simp [Entry.changeOn?])

/-- The channel of an owner has the changes of its remote parties, in the order of all changes. -/
def Projected (g : Graph) (s : Service) : Prop :=
  ∀ o, s.changes (.remotesOf o) = s.events.filter fun e => g.isRemoteOf o e.party

namespace Projected

theorem change (h : s.Projected g) (c : GraphChange) : (s.change c).Projected g := by
  intro o
  rw [changes_change, events_change]
  exact h o

theorem tellOfRemote {owner : PartyRef} {e : PartyEvent} (h : s.Projected g)
    (hr : g.IsRemote owner e.party) : (s.tellOfRemote owner e).Projected g := by
  intro o
  rw [events_tellOfRemote, List.filter_append, ← h o]
  have hfilter : [e].filter (fun e => g.isRemoteOf o e.party) = if owner = o then [e] else [] := by
    rw [List.filter_singleton, Graph.isRemoteOf_eq_decide hr]
    by_cases ho : owner = o <;> simp [ho]
  rw [hfilter]
  by_cases ho : owner = o <;> simp [Service.tellOfRemote, tell, Entry.changeOn?, Signal.change?, ho]

theorem tellOfTenant {e : PartyEvent} (h : s.Projected g) (ht : g.IsTenant e.party) :
    (s.tell .all (.party e)).Projected g := by
  intro o
  have hfilter : [e].filter (fun e => g.isRemoteOf o e.party) = [] := by
    simp [Graph.isRemoteOf_of_isTenant ht]
  have hevents : (s.tell .all (.party e)).events = s.events ++ [e] := by
    simp [tell, Entry.event?, Signal.change?]
  rw [hevents, List.filter_append, hfilter, List.append_nil, ← h o]
  simp [tell, Entry.changeOn?]

/-- Remote parties of one owner, one after the other. -/
theorem foldl {f : Service → PartyId → Service} {rs : List PartyId} (h : s.Projected g)
    (owner : PartyRef) (hrs : ∀ r ∈ rs, g.IsRemote owner r)
    (hf : ∀ t r, t.Projected g → g.IsRemote owner r → (f t r).Projected g) :
    (rs.foldl f s).Projected g := by
  induction rs generalizing s with
  | nil => exact h
  | cons r rs ih =>
    rw [List.forall_mem_cons] at hrs
    exact ih (hf s r h hrs.1) hrs.2

theorem publish {b : Batch} (h : s.Projected s.graph) (hb : b.Fits s.graph) (hs : s.graph.Sound)
    (hroom : s.graph.Room (b.family s.graph)) : (s.publish b).Projected s.graph := by
  refine (publish_induction (P := fun _ t => t.Projected s.graph) hb hs hroom
    (fun id rest t hid _ ht => ?_) (fun id rest t hid hp ht => ?_) h).2
  · exact (ht.change _).tellOfRemote (hb.remotes id hid)
  · have hlist : (t.graph.apply (.insert id)).remotesOf (.owned id)
        = s.graph.remotesOf (.owned id) := by
      rw [Graph.apply_insert_tenant ((hb.tenants id hid).congr (hp.origin id)),
        ← hp.nested hb hid]
      rfl
    rw [publishTenant]
    refine foldl ((ht.change _).tellOfTenant (hb.tenants id hid)) (.owned id)
      (fun r hr => hs.remotes _ r (hlist ▸ hr)) fun t r ht hr => ht.tellOfRemote hr

theorem removeParty {p : OwnedParty} (h : s.Projected s.graph) (hs : s.graph.Sound)
    (hp : s.graph.party? id = some p) : (s.removeParty id p).Projected s.graph := by
  rw [Service.removeParty]
  cases hk : p.isTenant with
  | true =>
    have ht := Graph.isTenant_of_party? hp hk
    have hlist : (s.graph.apply (.remove id)).remotesOf (.owned id)
        = s.graph.remotesOf (.owned id) := by
      rw [Graph.apply_remove_tenant ht]
      rfl
    rw [if_pos rfl, removeTenant]
    refine change (tellOfTenant ?_ ht) _
    exact foldl ((h.change _).change _) (.owned id)
      (fun r hr => hs.remotes _ r (hlist ▸ hr)) fun t r ht hr => (ht.tellOfRemote hr).change _
  | false =>
    have hr := Graph.isRemote_of_party? hp hk
    rw [if_neg (by simp), removeRemote]
    exact ((h.change _).tellOfRemote (e := .disappeared id) hr).change _

end Projected

/-! ### Who is in a list -/

/-- The family of a batch is in lists after it was put into the graph. -/
theorem listed_publish {b : Batch} (hb : b.Fits s.graph) (hs : s.graph.Sound)
    (hroom : s.graph.Room (b.family s.graph)) (x : PartyId) :
    (s.publish b).graph.Listed x ↔ s.graph.Listed x ∨ x ∈ b.family s.graph := by
  have := (publish_induction (P := fun rest t =>
      t.graph.Listed x ∨ x ∈ rest ↔ s.graph.Listed x ∨ x ∈ b.family s.graph) hb hs hroom
    (fun id rest t hid hp ht => ?_) (fun id rest t hid hp ht => ?_) Iff.rfl).2
  · simpa using this
  · have hremote : t.graph.IsRemote b.owner id := (hb.remotes id hid).congr (hp.origin id)
    rw [← ht, graph_publishRemote, Graph.listed_insert_remote hremote (hp.owner hb), or_assoc,
      List.mem_cons]
  · have htenant : t.graph.IsTenant id := (hb.tenants id hid).congr (hp.origin id)
    have hlist : x ∈ s.graph.remotesOf (.owned id) → t.graph.Listed x := fun hx =>
      .inr ⟨.owned id, hp.nested hb hid ▸ hx⟩
    rw [← ht, graph_publishTenant, Graph.listed_insert_tenant htenant, List.cons_append,
      List.mem_cons, List.mem_append, or_assoc]
    exact ⟨Or.imp_right (Or.imp_right .inr), fun h => h.elim .inl fun h => h.elim (.inr ∘ .inl)
      fun h => h.elim (.inl ∘ hlist) (.inr ∘ .inr)⟩

/-! ### The family of a batch -/

/-- Among the family of a batch there is a remote party only if the owner of the batch owns it or a
tenant domain of the batch does. -/
theorem owner_of_mem_family {b : Batch} (hb : b.Fits s.graph) (hs : s.graph.Sound) {t r : PartyId}
    (hr : s.graph.IsRemote (.owned t) r) (hmem : r ∈ b.family s.graph) :
    b.owner = .owned t ∧ r ∈ b.remotes ∨ t ∈ b.tenants := by
  rcases Batch.mem_family.mp hmem with hmem | ⟨t', ht', hmem⟩
  · rcases List.mem_append.mp hmem with hmem | hmem
    · exact .inl ⟨(hb.remotes r hmem).owner_unique hr, hmem⟩
    · exact absurd (hb.tenants r hmem) (Graph.not_isTenant_of_isRemote hr)
  · cases (hs.remotes _ r hmem).owner_unique hr
    exact .inr ht'

theorem mem_tenants_of_family {b : Batch} (hb : b.Fits s.graph) (hs : s.graph.Sound) {t : PartyId}
    (ht : s.graph.IsTenant t) (hmem : t ∈ b.family s.graph) : t ∈ b.tenants := by
  rcases Batch.mem_family.mp hmem with hmem | ⟨t', -, hmem⟩
  · rcases List.mem_append.mp hmem with hmem | hmem
    · exact absurd ht (Graph.not_isTenant_of_isRemote (hb.remotes t hmem))
    · exact hmem
  · exact absurd ht (Graph.not_isTenant_of_isRemote (hs.remotes _ t hmem))

/-! ### What is kept -/

/-- Where the changes told are in the right order, when the jobs of a list are still to come or
under way. -/
structure EventsFit (line : List IdentityJob) (s : Service) : Prop where
  made : ∀ e ∈ s.events, e.party < s.graph.parties.length
  owners : s.graph.OwnersFirst
  /-- Nothing was told of the remote parties of tenant domains that wait. -/
  waiting : ∀ b, .add b ∈ line → ∀ t ∈ b.tenants, ∀ e ∈ s.events,
    ¬ s.graph.IsRemote (.owned t) e.party
  listed : ∀ r, .appeared r ∈ s.events → s.graph.Listed r ∨ .disappeared r ∈ s.events
  gone : ∀ x, .disappeared x ∈ s.events → s.graph.isGone x = true
  leads : ∀ t r, s.graph.IsTenant t → s.graph.IsRemote (.owned t) r → .appeared t ∈ s.events →
    Leads s.events (.appeared t) (.appeared r)
  closes : ∀ t r, s.graph.IsTenant t → s.graph.IsRemote (.owned t) r → .appeared r ∈ s.events →
    Closes s.events t r
  projected : s.Projected s.graph

namespace EventsFit

variable {b : Batch} {p : OwnedParty}

/-- Nothing is told, and nothing happens to the parties made before. -/
theorem frame (h : EventsFit line s) (he : Graph.Extends s.graph s'.graph)
    (hevents : s'.events = s.events)
    (hchanges : ∀ o, s'.changes (.remotesOf o) = s.changes (.remotesOf o))
    (howners : s'.graph.OwnersFirst) (hgone : ∀ x, s'.graph.isGone x = s.graph.isGone x)
    (hline : ∀ b, .add b ∈ line' → .add b ∈ line ∨
      ∀ t ∈ b.tenants, s.graph.parties.length ≤ t) : EventsFit line' s' := by
  have remote {e : PartyEvent} {o : PartyRef} (hmem : e ∈ s.events)
      (hr : s'.graph.IsRemote o e.party) : s.graph.IsRemote o e.party :=
    hr.congr (he.origin _ (h.made e hmem)).symm
  constructor
  case made => exact fun e hmem => Nat.lt_of_lt_of_le (h.made e (hevents ▸ hmem)) he.length
  case owners => exact howners
  case waiting =>
    intro b hb t ht e hmem hr
    rw [hevents] at hmem
    rcases hline b hb with hb | hnew
    · exact h.waiting b hb t ht e hmem (remote hmem hr)
    · have hlt := Nat.lt_trans (h.owners t _ (remote hmem hr)) (h.made e hmem)
      exact Nat.not_lt.mpr (hnew t ht) hlt
  case listed =>
    rw [hevents]
    exact fun r hmem => (h.listed r hmem).imp_left he.listed
  case gone =>
    rw [hevents]
    exact fun x hmem => (hgone x).trans (h.gone x hmem)
  case leads =>
    rw [hevents]
    intro t r ht hr hmem l l' hsplit
    have hmem' : .appeared r ∈ s.events := hsplit ▸ List.mem_append_right _ List.mem_cons_self
    have ht' : s.graph.IsTenant t := ht.congr (he.origin t (h.made _ hmem)).symm
    exact h.leads t r ht' (remote hmem' hr) hmem l l' hsplit
  case closes =>
    rw [hevents]
    intro t r ht hr hmem l l' hsplit
    have hmem' : .disappeared t ∈ s.events := hsplit ▸ List.mem_append_right _ List.mem_cons_self
    have ht' : s.graph.IsTenant t := ht.congr (he.origin t (h.made _ hmem')).symm
    exact h.closes t r ht' (remote hmem hr) hmem l l' hsplit
  case projected =>
    intro o
    rw [hchanges, hevents, h.projected o]
    refine List.filter_congr fun e hmem => ?_
    exact (Graph.isRemoteOf_congr (he.origin _ (h.made e hmem))).symm

theorem mono (h : EventsFit line s) (hline : ∀ b, .add b ∈ line' → .add b ∈ line) :
    EventsFit line' s :=
  h.frame (.refl _) rfl (fun _ => rfl) h.owners (fun _ => rfl) fun b hb => .inl (hline b hb)

/-- Requests. -/
theorem asked {before : List IdentityJob} (h : EventsFit (before ++ s.jobs) s) (ha : s.Asked s') :
    EventsFit (before ++ s'.jobs) s' := by
  obtain ⟨new, hj, -, hall⟩ := ha.journal
  refine h.frame ha.graph_extends (Works.ask .refl ha).events
    (fun o => changes_append _ hj fun e he => (hall e he).changeOn?_eq_none) ?_ ha.isGone ?_
  · cases ha with
    | quiet ha => exact ha.graph ▸ h.owners
    | unready ha i => exact ha.graph ▸ h.owners
    | attached => exact h.owners.congr fun id _ => (Graph.alike_attach ..).origin id
    | unmoved | refused | empty => exact h.owners
    | @doomed id _ _ _ _ _ _ hpost =>
      have := h.owners.congr fun i _ => (Graph.alike_doom s.graph id).origin i
      cases hpost <;> exact this
    | stranded ha | enlisted ha =>
      refine h.owners.make (resolveIncrement_proper ha.resolved) ?_ rfl
      rintro t rfl
      obtain ⟨p, hp, -⟩ := Option.map_eq_some_iff.mp ha.configured
      exact (List.getElem?_eq_some_iff.mp hp).1
  · intro b hb
    rcases ha.jobs with hjobs | ⟨i, -, hjobs⟩ | ⟨b', hjobs, ready, -⟩
    · exact .inl (hjobs ▸ hb)
    · rw [hjobs, ← List.append_assoc] at hb
      exact .inl (by simpa using hb)
    · rw [hjobs, ← List.append_assoc, List.mem_append] at hb
      refine hb.imp_right fun hb t ht => ?_
      cases List.mem_singleton.mp hb
      exact (ready.mem_family_iff.mp (Batch.mem_family.mpr (.inl (List.mem_append_right _ ht)))).1

/-- The remote parties of tenant domains that wait are not in a batch before these: the numbers of
a batch are smaller than those of all that stand behind it. -/
theorem notMem_family_of_waiting {b' : Batch} {t r : PartyId}
    (hf : Footing g₀ (.busy (.add b)) line s) (hb' : .add b' ∈ line) (ht : t ∈ b'.tenants)
    (hr : s.graph.IsRemote (.owned t) r) : r ∉ b.family s.graph := by
  intro hmem
  obtain ⟨n, m, k, k', ready, ready', hle⟩ := hf.1.behind_add hb'
  have htk := (ready'.mem_family_iff.mp
    (Batch.mem_family.mpr (.inl (List.mem_append_right _ ht)))).1
  have hlt : t < m := by
    rcases owner_of_mem_family ready.fits hf.1.sound hr hmem with ⟨ho, -⟩ | ht
    · exact Nat.lt_trans (ready.earlier t ho) ready.lt
    · exact (ready.mem_family_iff.mp
        (Batch.mem_family.mpr (.inl (List.mem_append_right _ ht)))).2
  exact Nat.not_lt.mpr (Nat.le_trans hle htk) hlt

/-- A tenant domain appears before its remote parties, in the same batch or in an earlier one. -/
theorem leads_appeared {t r : PartyId} (h : EventsFit (.add b :: line) s)
    (hf : Footing g₀ (.busy (.add b)) line s) (ht : s.graph.IsTenant t)
    (hr : s.graph.IsRemote (.owned t) r)
    (htold : .appeared t ∈ s.events ++ (b.family s.graph).map .appeared) :
    Leads (s.events ++ (b.family s.graph).map .appeared) (.appeared t) (.appeared r) := by
  obtain ⟨n, m, ready⟩ := hf.1.ready
  rcases List.mem_append.mp htold with htold | htold
  · exact (h.leads t r ht hr htold).append fun l l' _ => List.mem_append_left _ htold
  · have hmem : t ∈ b.family s.graph := (PartyEvent.of_mem_appeared htold).1
    have htenant := mem_tenants_of_family ready.fits hf.1.sound ht hmem
    intro l l' hsplit
    rcases split_append hsplit with ⟨m, hes, -⟩ | ⟨m, hnew, rfl⟩
    · have hbefore : .appeared r ∈ s.events := hes ▸ List.mem_append_right _ List.mem_cons_self
      exact absurd hr (h.waiting b List.mem_cons_self t htenant _ hbefore)
    · obtain ⟨m, rest, hfamily, rfl, hrest⟩ := List.map_eq_append_iff.mp hnew
      obtain ⟨x, rest, rfl, hx, -⟩ := List.map_eq_cons_iff.mp hrest
      cases hx
      rw [ready.family] at hfamily hmem
      have := mem_of_split_range' hfamily hmem (h.owners t r hr)
      exact List.mem_append_right _ (List.mem_map_of_mem this)

/-- Nobody appears who belongs to a tenant domain that has disappeared. -/
theorem closes_appeared {t r : PartyId} (h : EventsFit (.add b :: line) s)
    (hf : Footing g₀ (.busy (.add b)) line s)
    (howner : ∀ t, b.owner = .owned t → s.graph.isGone t = false) (ht : s.graph.IsTenant t)
    (hr : s.graph.IsRemote (.owned t) r)
    (htold : .appeared r ∈ s.events ++ (b.family s.graph).map .appeared) :
    Closes (s.events ++ (b.family s.graph).map .appeared) t r := by
  obtain ⟨n, m, ready⟩ := hf.1.ready
  have apart (hgone : s.graph.isGone t = true) : r ∉ b.family s.graph := by
    intro hmem
    rcases owner_of_mem_family ready.fits hf.1.sound hr hmem with ⟨ho, -⟩ | htenant
    · exact absurd ((howner t ho).symm.trans hgone) (by simp)
    · have habsent := (hf.2.waiting b List.mem_cons_self t (List.mem_append_right _ htenant)).1
      exact absurd (habsent.symm.trans hgone) (by simp)
  intro l l' hsplit
  rcases split_append hsplit with ⟨m, hes, rfl⟩ | ⟨m, hnew, -⟩
  · have hdisappeared : .disappeared t ∈ s.events :=
      hes ▸ List.mem_append_right _ List.mem_cons_self
    have hapart := apart (h.gone t hdisappeared)
    have hbefore : .appeared r ∈ s.events :=
      (List.mem_append.mp htold).resolve_right fun hmem =>
        hapart (PartyEvent.of_mem_appeared hmem).1
    obtain ⟨hmem, hlast⟩ := h.closes t r ht hr hbefore l m hes
    refine ⟨hmem, fun e he => ?_⟩
    rcases List.mem_append.mp he with he | he
    · exact hlast e he
    · rintro rfl
      exact hapart (PartyEvent.of_mem_appeared he).1
  · have hmem : PartyEvent.disappeared t ∈ (b.family s.graph).map PartyEvent.appeared :=
      hnew ▸ List.mem_append_right _ List.mem_cons_self
    cases (PartyEvent.of_mem_appeared hmem).2

/-- A batch is put into the graph, to an owner that is not gone. -/
theorem published (h : EventsFit (.add b :: line) s)
    (hf : Footing g₀ (.busy (.add b)) line s) (howner : ∀ t, b.owner = .owned t →
      s.graph.isGone t = false) (hroom : s.graph.Room (b.family s.graph)) :
    EventsFit line (s.publish b) := by
  obtain ⟨n, m, ready⟩ := hf.1.ready
  have fits := ready.fits
  have hs := hf.1.sound
  have absent := hf.2.waiting b List.mem_cons_self
  have publishing := publishing_publish fits hs hroom
  have entered := entering_publish fits hs hroom hf.2.apart hf.2.tidy absent
  have hevents := events_publish fits hs hroom
  have back {o : PartyRef} {r : PartyId} (hr : (s.publish b).graph.IsRemote o r) :
      s.graph.IsRemote o r := hr.congr (publishing.origin r).symm
  constructor
  case made =>
    intro e he
    rw [hevents, List.mem_append] at he
    rw [publishing.length]
    rcases he with he | he
    · exact h.made e he
    · have hmem := (PartyEvent.of_mem_appeared he).1
      exact Nat.lt_of_lt_of_le (ready.mem_family_iff.mp hmem).2 ready.bound
  case owners => exact h.owners.congr fun id _ => publishing.origin id
  case waiting =>
    intro b' hb' t ht e he hr
    rw [hevents, List.mem_append] at he
    rcases he with he | he
    · exact h.waiting b' (List.mem_cons_of_mem _ hb') t ht e he (back hr)
    · exact notMem_family_of_waiting hf hb' ht (back hr) (PartyEvent.of_mem_appeared he).1
  case listed =>
    intro r hr
    rw [hevents, List.mem_append] at hr
    rw [listed_publish fits hs hroom, hevents]
    rcases hr with hr | hr
    · exact (h.listed r hr).elim (fun hr => .inl (.inl hr))
        fun hr => .inr (List.mem_append_left _ hr)
    · exact .inl (.inr (PartyEvent.of_mem_appeared hr).1)
  case gone =>
    intro x hx
    rw [hevents, List.mem_append] at hx
    rw [entered.gone]
    rcases hx with hx | hx
    · exact h.gone x hx
    · cases (PartyEvent.of_mem_appeared hx).2
  case leads =>
    rw [hevents]
    exact fun t r ht hr => h.leads_appeared hf (ht.congr (publishing.origin t).symm) (back hr)
  case closes =>
    rw [hevents]
    exact fun t r ht hr =>
      h.closes_appeared hf howner (ht.congr (publishing.origin t).symm) (back hr)
  case projected =>
    intro o
    rw [h.projected.publish fits hs hroom o]
    exact List.filter_congr fun e _ => (Graph.isRemoteOf_congr (publishing.origin _)).symm

/-- Among those who leave together a tenant domain is the last, after its remote parties. -/
theorem split_departing (hs : s.graph.Sound) (hp : s.graph.party? id = some p) {t : PartyId}
    {l l' : List PartyId} (ht : s.graph.IsTenant t) (h : departing s.graph id p = l ++ t :: l') :
    t = id ∧ l = s.graph.remotesOf (.owned id) ∧ l' = [] := by
  have hno : t ∉ s.graph.remotesOf (.owned id) := fun hmem =>
    Graph.not_isTenant_of_isRemote (hs.remotes _ t hmem) ht
  rw [departing] at h
  rcases split_append h with ⟨m, hlist, -⟩ | ⟨m, hlast, rfl⟩
  · split at hlist
    · exact absurd (hlist ▸ List.mem_append_right _ List.mem_cons_self) hno
    · exact absurd hlist.symm (by simp)
  · rcases List.cons_eq_append_iff.mp hlast with ⟨rfl, hlast⟩ | ⟨_, -, hlast⟩
    · obtain ⟨rfl, rfl⟩ := List.cons.inj hlast
      cases hk : p.isTenant with
      | true => exact ⟨rfl, by simp, rfl⟩
      | false => exact absurd ht (Graph.not_isTenant_of_isRemote (Graph.isRemote_of_party? hp hk))
    · exact absurd hlast.symm (by simp)

/-- Nobody leaves who is gone. -/
theorem isGone_of_mem_departing (hf : Footing g₀ (.busy (.destroy id)) line s)
    (hg : s.graph.isGone id = false) {x : PartyId} (hx : x ∈ departing s.graph id p) :
    s.graph.isGone x = false := by
  rcases mem_departing hx with rfl | hx
  · exact hg
  · exact Bool.eq_false_iff.mpr fun hgone => hf.2.apart.now x hgone hx

/-- The remote parties of tenant domains that wait do not leave: whoever leaves with another party
belongs to one that was made before all that stand behind it in line. -/
theorem notMem_departing_of_waiting {b' : Batch} {t r : PartyId} (h : s.graph.OwnersFirst)
    (hf : Footing g₀ (.busy (.destroy id)) line s) (hb' : .add b' ∈ line) (ht : t ∈ b'.tenants)
    (hr : s.graph.IsRemote (.owned t) r) : r ∉ departing s.graph id p := by
  obtain ⟨k, k', ready, hid⟩ := hf.1.behind_destroy hb'
  have hle := (ready.mem_family_iff.mp
    (Batch.mem_family.mpr (.inl (List.mem_append_right _ ht)))).1
  have hlt : id < t := Nat.lt_of_lt_of_le hid hle
  rw [departing, List.mem_append, List.mem_singleton]
  rintro (hmem | rfl)
  · split at hmem
    · cases (hf.1.sound.remotes _ _ hmem).owner_unique hr
      exact Nat.lt_irrefl _ hlt
    · cases hmem
  · exact Nat.lt_asymm (h t _ hr) hlt

/-- The remote parties in the list of a tenant domain disappear before it. -/
theorem closes_disappeared {t r : PartyId} (h : EventsFit line' s)
    (hf : Footing g₀ (.busy (.destroy id)) line s) (hp : s.graph.party? id = some p)
    (hg : s.graph.isGone id = false) (ht : s.graph.IsTenant t)
    (hr : s.graph.IsRemote (.owned t) r) (htold : .appeared r ∈ s.events) :
    Closes (s.events ++ (departing s.graph id p).map .disappeared) t r := by
  have hs := hf.1.sound
  refine (h.closes t r ht hr htold).append (fun hdisappeared e he => ?_) fun l l' hsplit => ?_
  · -- The remote party has disappeared already, and nobody leaves who is gone.
    rintro rfl
    obtain ⟨l, l', hsplit⟩ := List.append_of_mem hdisappeared
    have hmem := (h.closes t _ ht hr htold l l' hsplit).1
    have hgone := h.gone _ (hsplit ▸ List.mem_append_left _ hmem)
    have hpresent := isGone_of_mem_departing hf hg (PartyEvent.of_mem_disappeared he).1
    exact absurd (hpresent.symm.trans hgone) (by simp)
  · obtain ⟨m, rest, hleave, rfl, hrest⟩ := List.map_eq_append_iff.mp hsplit
    obtain ⟨x, rest, rfl, hx, rfl⟩ := List.map_eq_cons_iff.mp hrest
    cases hx
    obtain ⟨rfl, rfl, rfl⟩ := split_departing hs hp ht hleave
    refine ⟨?_, by simp⟩
    rcases h.listed r htold with hlisted | hbefore
    · rcases hlisted with hlisted | ⟨o, hlisted⟩
      · exact absurd (hs.tenants r hlisted) (Graph.not_isTenant_of_isRemote hr)
      · cases (hs.remotes o r hlisted).owner_unique hr
        exact List.mem_append_right _ (List.mem_map_of_mem hlisted)
    · exact List.mem_append_left _ hbefore

/-- A party leaves. -/
theorem removed (h : EventsFit (.destroy id :: line) s)
    (hf : Footing g₀ (.busy (.destroy id)) line s) (hp : s.graph.party? id = some p)
    (hg : s.graph.isGone id = false) : EventsFit line (s.removeParty id p) := by
  have hs := hf.1.sound
  have loses := loses_removeParty hs hp
  have hevents := events_removeParty hp
  have origin (x : PartyId) : (s.removeParty id p).graph.origin? x = s.graph.origin? x :=
    ((alike_removeParty s id p).origin x).trans (Graph.origin?_without x)
  have back {o : PartyRef} {r : PartyId} (hr : (s.removeParty id p).graph.IsRemote o r) :
      s.graph.IsRemote o r := hr.congr (origin r).symm
  have old {r : PartyId} (hr : .appeared r ∈ (s.removeParty id p).events) :
      .appeared r ∈ s.events := by
    rw [hevents, List.mem_append] at hr
    refine hr.resolve_right fun hr => ?_
    cases (PartyEvent.of_mem_disappeared hr).2
  constructor
  case made =>
    intro e he
    rw [hevents, List.mem_append] at he
    rw [loses.length]
    rcases he with he | he
    · exact h.made e he
    · rcases mem_departing (PartyEvent.of_mem_disappeared he).1 with heq | hlisted | ⟨o, hlisted⟩
      · rw [heq]
        exact (List.getElem?_eq_some_iff.mp hp).1
      · exact (hs.tenants _ hlisted).lt
      · exact (hs.remotes o _ hlisted).lt
  case owners => exact h.owners.congr fun x _ => origin x
  case waiting =>
    intro b hb t ht e he hr
    rw [hevents, List.mem_append] at he
    rcases he with he | he
    · exact h.waiting b (List.mem_cons_of_mem _ hb) t ht e he (back hr)
    · exact notMem_departing_of_waiting h.owners hf hb ht (back hr)
        (PartyEvent.of_mem_disappeared he).1
  case listed =>
    intro r hr
    rw [listed_removeParty hs hp, hevents]
    rcases h.listed r (old hr) with hlisted | htold
    · by_cases hleaves : r ∈ departing s.graph id p
      · exact .inr (List.mem_append_right _ (List.mem_map_of_mem hleaves))
      · exact .inl ⟨hlisted, hleaves⟩
    · exact .inr (List.mem_append_left _ htold)
  case gone =>
    intro x hx
    rw [hevents, List.mem_append] at hx
    rw [loses.gone]
    exact hx.imp (h.gone x) fun hx => (PartyEvent.of_mem_disappeared hx).1
  case leads =>
    intro t r ht hr htold
    rw [hevents]
    have leads := h.leads t r (ht.congr (origin t).symm) (back hr) (old htold)
    refine leads.append fun l l' hsplit => ?_
    have hmem : .appeared r ∈ (departing s.graph id p).map PartyEvent.disappeared :=
      hsplit ▸ List.mem_append_right _ List.mem_cons_self
    cases (PartyEvent.of_mem_disappeared hmem).2
  case closes =>
    intro t r ht hr htold
    rw [hevents]
    exact h.closes_disappeared hf hp hg (ht.congr (origin t).symm) (back hr) (old htold)
  case projected =>
    intro o
    rw [h.projected.removeParty hs hp o]
    exact List.filter_congr fun e _ => (Graph.isRemoteOf_congr (origin _)).symm

/-- Nothing happens but entries that tell of nobody. -/
theorem unchanged (h : EventsFit line s) (new : List Entry) (hg : s'.graph = s.graph)
    (hj : s'.journal = new ++ s.journal) (hevent : ∀ e ∈ new, e.event? = none)
    (hchange : ∀ o, ∀ e ∈ new, e.changeOn? (.remotesOf o) = none) : EventsFit line s' := by
  exact h.frame (hg ▸ .refl _) (events_of_journal hj hevent)
    (fun o => changes_append _ hj (hchange o)) (hg ▸ h.owners) (fun x => by rw [hg])
    fun b hb => .inl hb

end EventsFit

/-! ### Histories -/

/-- Whether the owner of the batch that is set up is not gone. -/
def Underway.OwnerStays (g : Graph) : Underway → Prop
  | adding _ b => ∀ t, b.owner = .owned t → g.isGone t = false
  | _ => True

theorem Underway.OwnerStays.congr {u : Underway} {g' : Graph} (h : u.OwnerStays g)
    (hgone : ∀ id, g'.isGone id = g.isGone id) : u.OwnerStays g' := by
  cases u with
  | adding f b => exact fun t ht => (hgone t).trans (h t ht)
  | nothing | destroying => trivial

/-- The owner of a batch that is not refused is alive. -/
theorem isDestroyed_of_batchRefusal {b : Batch} {t : PartyId} (hr : s.batchRefusal b = none)
    (ho : b.owner = .owned t) : s.graph.isDestroyed t = false := by
  rw [batchRefusal] at hr
  split at hr
  · cases hr
  · split at hr
    · cases hr
    · next hgoes =>
      rw [ho] at hgoes
      simpa [ownerGoes] using hgoes

theorem lasting_eventsFit (g₀ : Graph) : Lasting g₀ (fun _ _ => True) fun u line s =>
    EventsFit (u.stage.pending ++ line) s ∧ u.OwnerStays s.graph where
  same h hg hj :=
    ⟨h.1.unchanged [] hg hj (by simp) (by simp), h.2.congr fun _ => by rw [hg]⟩
  noted {_ _ _ e} h he := by
    refine ⟨h.1.unchanged [e] rfl rfl ?_ ?_, h.2⟩
    · simpa using he.event?_eq_none
    · simpa using fun o => he.changeOn?_eq_none
  asked hf h ha := ⟨h.1.asked ha, h.2.congr ha.isGone⟩
  left h := ⟨h.1.mono fun _ hb => List.mem_cons_of_mem _ hb, trivial⟩
  adding {b _ s} hf h _ hr := by
    refine ⟨h.1.unchanged [.passBegun .setupDynamic b.parties] rfl rfl ?_ ?_, fun t ho => ?_⟩
    · simp [Entry.event?]
    · simp [Entry.changeOn?]
    · have halive := isDestroyed_of_batchRefusal hr ho
      refine Bool.eq_false_iff.mpr fun hgone => ?_
      rw [graph_record, Graph.isGone_iff] at hgone
      exact absurd (Graph.isDestroyed_iff.mpr ⟨_, hgone, by simp⟩) (by simp [halive])
  failed h := ⟨h.1.mono fun _ hb => List.mem_cons_of_mem _ hb, trivial⟩
  published hf h _ hroom := ⟨h.1.published hf h.2 hroom, trivial⟩
  destroying {id _ s} hf h _ _ := by
    refine ⟨h.1.unchanged [.passBegun .teardownDynamic [id]] rfl rfl ?_ ?_, trivial⟩
    · simp [Entry.event?]
    · simp [Entry.changeOn?]
  removed hf h hp hg := ⟨h.1.removed hf hp hg, trivial⟩

theorem eventsFit_play {c : IdentityConfiguration} {place : DataPlace} (h : new c place = .ok s)
    (moves : List Move) : EventsFit (s.play moves).jobs (s.play moves) := by
  obtain ⟨r, hr, blank⟩ := blank_of_new h
  obtain ⟨-, -, hresolve⟩ := Except.exists_of_bind_eq_ok hr
  have hnone : s.events = [] := by simp [events_eq, blank.journal]
  have start : EventsFit s.jobs s := by
    constructor
    case made => simp [hnone]
    case owners =>
      rw [blank.graph]
      exact Graph.ownersFirst_ofResolved (resolveRoot_proper hresolve)
    case waiting => simp [hnone]
    case listed => simp [hnone]
    case gone => simp [hnone]
    case leads => simp [hnone]
    case closes =>
      intro t r _ _ htold
      simp [hnone] at htold
    case projected =>
      intro o
      simp [hnone, changes_eq, blank.journal]
  exact ((lasting_eventsFit s.graph).play_new h ⟨start, trivial⟩ moves fun _ _ => trivial).1

/-- Whether a party was told to appear. -/
def appears (s : Service) (id : PartyId) : Bool := decide (.appeared id ∈ s.events)

/-- The order in which tenant domains and their remote parties appear and disappear, and what the
channels of owners have of it, for all that appear at some point. -/
structure EventsInOrder (s : Service) : Prop where
  /-- A tenant domain appears before its remote parties. -/
  appear : ∀ t r, s.graph.IsTenant t → s.graph.IsRemote (.owned t) r → s.appears t = true →
    ∀ before after, s.events = before ++ .appeared r :: after → .appeared t ∈ before
  /-- It disappears after them, and nothing is told of them any more. -/
  disappear : ∀ t r, s.graph.IsTenant t → s.graph.IsRemote (.owned t) r → s.appears t = true →
    s.appears r = true → ∀ before after, s.events = before ++ .disappeared t :: after →
      .disappeared r ∈ before ∧ ∀ e ∈ after, e.party ≠ r
  /-- The channel of an owner has the changes of its remote parties in their order. -/
  project : ∀ o, (o = .root ∨ ∃ t, o = .owned t ∧ s.graph.IsTenant t ∧ s.appears t = true) →
    (s.changes (.remotesOf o)).filter (fun e => s.appears e.party) =
      s.events.filter fun e => s.appears e.party && s.graph.isRemoteOf o e.party

/-- **Changes are told in order.** In every history of a new service a tenant domain appears before
its remote parties and disappears after them, and the channel of every owner has what the channel
of all parties has of its remote parties. -/
theorem eventsInOrder {c : IdentityConfiguration} {place : DataPlace} {s₀ : Service}
    (h : new c place = .ok s₀) (moves : List Move) : (s₀.play moves).EventsInOrder := by
  have fit := eventsFit_play h moves
  have told {id : PartyId} (hid : (s₀.play moves).appears id = true) :
      .appeared id ∈ (s₀.play moves).events := of_decide_eq_true hid
  constructor
  case appear => exact fun t r ht hr htold => fit.leads t r ht hr (told htold)
  case disappear => exact fun t r ht hr _ hrtold => fit.closes t r ht hr (told hrtold)
  case project =>
    intro o _
    rw [fit.projected o, List.filter_filter]

/-- A section that declares a tenant domain with one remote party. -/
def domainSection : PartySection :=
  { PartySection.blank with
    domainName := some "T"
    partyName := some "T"
    parties := [{ PartySection.blank with partyName := some "R" }] }

/-- A tenant domain is added with a remote party, gets another one, and is destroyed. -/
def lifeOfDomain : List Move :=
  [.request .start, .deliver, .request (.add .root .any domainSection), .deliver,
    .request (.add (.owned 0) .any { PartySection.blank with partyName := some "S" }), .deliver,
    .request (.destroy 0), .deliver]

theorem eventsInOrder_lifeOfDomain :
    ∃ s₀, new .default ⟨"/home", none⟩ = .ok s₀ ∧ (s₀.play lifeOfDomain).EventsInOrder := by
  obtain ⟨s₀, h⟩ := exists_new_default
  exact ⟨s₀, h, eventsInOrder h _⟩

example : (new .default ⟨"/home", none⟩).toOption.map (fun s => (s.play lifeOfDomain).events) =
    some [.appeared 0, .appeared 1, .appeared 2, .disappeared 1, .disappeared 2,
      .disappeared 0] := by
  decide +kernel

end Service

end PartyGraph
