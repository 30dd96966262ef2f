import PartyGraph.Proofs.Service.Additions

/-!
# Additions are all or nothing

An addition ends in one of three ways. It is refused at once, it waits for its outcome, or it has
nothing to add. The first leaves no trace of the parties that were made for it, if any were. The
second is settled while the agent handles one message: either all its parties are put into the
graph in the middle of that, and the answer is success, or nothing was shown of any of them and
nothing ever will be, and the answer is an error.

The books of additions (`Service.Books`) hold throughout a history. What has to be added is what
holds in the middle of a message: since when it is handled, and whether its batch has been put
into the graph (`Service.Standing`).

## Main definitions

* `Service.Standing`: what holds in the middle of a message.
* `AllOrNothing`: what a journal says of all additions.

## Main results

* `Service.steady_accounted`: the books are kept throughout.
* `Service.Books.outcomes`: what the books say of additions when the agent is free.
-/

namespace PartyGraph

namespace Stage

/-- The batch that the agent handles, which waits for its outcome until the end. -/
def waiting : Stage → List Batch
  | busy (.add b) => [b]
  | settled b => [b]
  | _ => []

/-- The ticket of the batch that was put into the graph, while its outcome is not answered. -/
def landed? : Stage → Option Nat
  | settled b => some b.ticket
  | _ => none

end Stage

namespace Service

variable {s s' : Service} {g₀ : Graph} {b : Batch} {stage : Stage} {line : List IdentityJob}
  {new : List Entry}

/-! ### In the middle of a message -/

/-- The agent handles a batch, and has taken no message since. -/
def Begun (b : Batch) (s : Service) : Prop :=
  ∃ during before, s.journal = during ++ .handling (.job (.add b)) :: before ∧
    ∀ c, .handling c ∉ during

/-- The agent has put the batch that it handles into the graph, and nothing of it was shown
before. -/
structure Settled (b : Batch) (s : Service) : Prop where
  begun : ∃ during before, s.journal = during ++ .handling (.job (.add b)) :: before ∧
    (∀ c, .handling c ∉ during) ∧ Unseen (b.family s.graph) before
  ready : ∃ n m, b.Ready s n m
  remotes : ∀ id ∈ b.remotes, id ∈ s.graph.remotesOf b.owner
  tenants : ∀ id ∈ b.tenants, id ∈ s.graph.tenants

/-- What holds at a stage. -/
def Standing (s : Service) : Stage → Prop
  | .busy (.add b) => s.Begun b
  | .settled b => s.Settled b
  | _ => True

theorem Begun.append (h : s.Begun b) (hj : s'.journal = new ++ s.journal)
    (hno : ∀ c, .handling c ∉ new) : s'.Begun b := by
  obtain ⟨during, before, hjournal, hduring⟩ := h
  refine ⟨new ++ during, before, by rw [hj, hjournal, List.append_assoc], fun c hc => ?_⟩
  exact (List.mem_append.mp hc).elim (hno c) (hduring c)

theorem Settled.append (h : s.Settled b) (he : Graph.Extends s.graph s'.graph)
    (hj : s'.journal = new ++ s.journal) (hno : ∀ c, .handling c ∉ new) : s'.Settled b := by
  obtain ⟨during, before, hjournal, hduring, hunseen⟩ := h.begun
  obtain ⟨n, m, ready⟩ := h.ready
  have spares := (Spares.of_extends he ⟨new, hj⟩).mono (Nat.zero_le n) ready.bound
  have howner (t : PartyId) (ht : b.owner = .owned t) : t < s.graph.parties.length :=
    Nat.lt_trans (ready.earlier t ht) (Nat.lt_of_lt_of_le ready.lt ready.bound)
  constructor
  case begun =>
    rw [ready.family_eq spares]
    refine ⟨new ++ during, before, by rw [hj, hjournal, List.append_assoc], fun c hc => ?_, hunseen⟩
    exact (List.mem_append.mp hc).elim (hno c) (hduring c)
  case ready => exact ⟨n, m, ready.spared spares⟩
  case remotes =>
    rw [he.remotesOf b.owner howner]
    exact h.remotes
  case tenants =>
    rw [he.tenants]
    exact h.tenants

theorem Standing.append (h : s.Standing stage) (he : Graph.Extends s.graph s'.graph)
    (hj : s'.journal = new ++ s.journal) (hno : ∀ c, .handling c ∉ new) : s'.Standing stage := by
  cases stage with
  | free => trivial
  | busy j =>
    cases j with
    | add b => exact Begun.append h hj hno
    | destroy id => trivial
  | settled b => exact Settled.append h he hj hno

theorem Begun.publish {n m : Nat} (h : s.Begun b) (hunseen : Unseen (b.family s.graph) s.journal)
    (hb : b.Ready s n m) (hs : s.graph.Sound) (hroom : s.graph.Room (b.family s.graph)) :
    (s.publish b).Settled b := by
  obtain ⟨during, before, hjournal, hduring⟩ := h
  obtain ⟨new, hj, hnew⟩ := showsOnly_publish hb.fits hs hroom
  obtain ⟨hremotes, htenants⟩ := mem_lists_publish hb.fits
  have spares := (spares_publish hb hs hroom).mono (Nat.le_refl n) hb.bound
  have hno (c : Agent.Call IdentityJob) : .handling c ∉ new := by
    intro hc
    obtain ⟨id, -, heq | ⟨channel, heq⟩⟩ := hnew _ hc <;> cases heq
  have hbefore : Unseen (b.family s.graph) before := fun id hid e he =>
    hunseen id hid e (hjournal ▸ List.mem_append_right _ (List.mem_cons_of_mem _ he))
  constructor
  case begun =>
    rw [hb.family_eq spares]
    refine ⟨new ++ during, before, by rw [hj, hjournal, List.append_assoc], fun c hc => ?_, hbefore⟩
    exact (List.mem_append.mp hc).elim (hno c) (hduring c)
  case ready => exact ⟨n, m, hb.spared spares⟩
  case remotes => exact hremotes
  case tenants => exact htenants

/-- When success is answered, the addition is whole. -/
theorem Settled.whole {parties tickets : Nat} {increment : PartySection} {made : List PartyId}
    {b' : Batch} (h : s.Settled b) (hg : s.graph = g₀.after s.journal)
    (hledger : Ledger s.journal parties tickets) (hticket : b'.ticket = b.ticket)
    (hentry : .askedToAdd b'.owner increment made (.ok b'.added) ∈ s.journal) :
    Whole g₀ (.answered b'.ticket (.ok ()) :: s.journal) b' increment made := by
  obtain ⟨during, before, hjournal, hduring, hunseen⟩ := h.begun
  obtain ⟨n, m, ready⟩ := h.ready
  obtain ⟨increment', hentry', built⟩ := ready.asked
  obtain ⟨hb, hincrement, hmade⟩ := hledger.eq_of_ticket hentry hentry' hticket
  subst hb hincrement hmade
  have hafter : g₀.after (during ++ .handling (.job (.add b')) :: before) = s.graph := by
    rw [← hjournal, hg]
  refine ⟨[], during, before, by rw [hjournal]; rfl, by simp [Unseen], hduring, hunseen, ?_⟩
  rw [hafter]
  exact ⟨built, rfl, h.remotes, h.tenants⟩

/-! ### The books throughout a history -/

/-- The books are kept, and what holds at a stage does. -/
structure Accounted (g₀ : Graph) (stage : Stage) (line : List IdentityJob) (s : Service) :
    Prop where
  books : Books g₀ (stage.waiting ++ batches line) stage.landed? s
  standing : s.Standing stage

theorem mute_removeParty (s : Service) (id : PartyId) (p : OwnedParty) :
    ∃ new, (s.removeParty id p).journal = new ++ s.journal ∧ ∀ e ∈ new, e.IsMute := by
  have cons {t : Service} {e : Entry} (he : e.IsMute)
      (h : ∃ new, t.journal = new ++ s.journal ∧ ∀ e ∈ new, e.IsMute) :
      ∃ new, e :: t.journal = new ++ s.journal ∧ ∀ e ∈ new, e.IsMute := by
    obtain ⟨new, hnew, hall⟩ := h
    exact ⟨e :: new, congrArg _ hnew, List.forall_mem_cons.mpr ⟨he, hall⟩⟩
  have start : ∃ new, s.journal = new ++ s.journal ∧ ∀ e ∈ new, e.IsMute := ⟨[], rfl, by simp⟩
  exact removeParty_induction
    (P := fun t => ∃ new, t.journal = new ++ s.journal ∧ ∀ e ∈ new, e.IsMute) s id p
    (fun _ => cons ⟨trivial, rfl⟩ start) (fun _ => cons ⟨trivial, rfl⟩ (cons ⟨trivial, rfl⟩ start))
    (fun _ _ _ h => cons ⟨trivial, rfl⟩ h) fun _ _ _ h => cons ⟨trivial, rfl⟩ h

theorem steady_accounted (g₀ : Graph) : Steady g₀ (Accounted g₀) where
  asked {stage s s'} hs h ha := by
    obtain ⟨new, hj, -, hall⟩ := ha.journal
    exact ⟨h.books.asked ha, h.standing.append ha.graph_extends hj fun c hc => hall _ hc⟩
  aside {stage line s s'} h ha := by
    obtain ⟨new, hj, hall⟩ := ha.journal
    refine ⟨h.books.mute new hj (fun e he => (hall e he).isMute)
      (Nat.le_of_eq (by rw [ha.graph])) ha.tickets, ?_⟩
    exact h.standing.append (ha.graph ▸ .refl _) hj fun c hc => hall _ hc
  taken {c line s} h := by
    have mute : ∀ e ∈ [Entry.handling c], e.IsMute := List.forall_mem_singleton.mpr ⟨trivial, rfl⟩
    have hbooks : Books g₀ (batches (c.job?.toList ++ line)) none (s.record (.handling c)) :=
      h.books.mute _ rfl mute (Nat.le_refl _) rfl
    cases c with
    | job j =>
      cases j with
      | add b => exact ⟨hbooks, [], s.journal, rfl, by simp⟩
      | destroy id => exact ⟨hbooks, trivial⟩
    | start | heartbeat | stop => exact ⟨hbooks, trivial⟩
  dropped {j line s} h := by
    cases j with
    | add b => exact ⟨h.books.answer _ (by simp [Stage.landed?]) (by simp), trivial⟩
    | destroy id => exact ⟨h.books, trivial⟩
  left h := ⟨h.books, trivial⟩
  removed {id p line s} hs h hp _ := by
    obtain ⟨new, hj, hall⟩ := mute_removeParty s id p
    have hlength : (s.removeParty id p).graph.parties.length = s.graph.parties.length :=
      (alike_removeParty s id p).length.trans Graph.length_without
    have htickets := (noted_removeParty s id p).tickets
    exact ⟨h.books.mute new hj hall (Nat.le_of_eq hlength.symm) htickets, trivial⟩
  failed e h := ⟨h.books.answer _ (by simp [Stage.landed?]) (by simp), trivial⟩
  published {b line s} hs h hroom := by
    obtain ⟨n, m, ready⟩ := hs.ready
    refine ⟨h.books.published ready hs.sound hroom, ?_⟩
    exact Begun.publish h.standing (h.books.unseen List.mem_cons_self ready) ready hs.sound hroom
  succeeded {b line s} hs h := by
    refine ⟨h.books.answer _ (fun t ht => ?_) fun increment made b' _ ht hentry => ?_, trivial⟩
    · exact .inr ⟨(Option.some.inj ht).symm, rfl⟩
    · exact Settled.whole h.standing hs.graph h.books.ledger ht hentry

theorem Blank.books {r : ResolvedRoot} (h : s.Blank r) : Books g₀ (batches s.jobs) none s := by
  rw [h.jobs]
  refine ⟨⟨?_, ?_, ?_, ?_, ?_, ?_⟩, ?_, ?_, ?_, ?_⟩ <;> simp [h.journal, batches]

end Service

/-- What a journal says of all additions, where `g₀` is the graph at the beginning. -/
structure AllOrNothing (g₀ : Graph) (journal : List Entry) : Prop where
  /-- Nothing is ever shown of what was made for an addition that was refused. -/
  refused : ∀ owner increment made e, .askedToAdd owner increment made (.error e) ∈ journal →
    Unseen made journal
  /-- An addition has nothing to wait for only if nothing was made for it. -/
  empty : ∀ owner increment made a, .askedToAdd owner increment made (.ok a) ∈ journal →
    a.ticket = none → made = []
  /-- What someone waits for was made for the addition. -/
  complete : ∀ owner increment made a, .askedToAdd owner increment made (.ok a) ∈ journal →
    ∀ id ∈ a.parties, id ∈ made
  /-- Nothing is ever shown of what was made for an addition that failed. -/
  failed : ∀ (b : Batch) increment made e,
    .askedToAdd b.owner increment made (.ok b.added) ∈ journal →
    .answered b.ticket (.error e) ∈ journal → Unseen made journal
  /-- An addition that succeeded is whole. -/
  succeeded : ∀ (b : Batch) increment made,
    .askedToAdd b.owner increment made (.ok b.added) ∈ journal →
    .answered b.ticket (.ok ()) ∈ journal → Whole g₀ journal b increment made

namespace Service

/-- When the agent is free, whatever was shown belongs to an addition that succeeded. -/
theorem Books.outcomes (h : Books g₀ (batches line) none s) : AllOrNothing g₀ s.journal where
  refused owner increment made e he id hid e' he' hshown := by
    obtain ⟨e'', he'', hmade, t, ht, -⟩ := h.seen id e' he' hshown
    obtain rfl := h.ledger.eq_of_made he'' he hmade hid
    cases ht
  empty owner increment made a ha := (h.ledger.complete _ _ _ _ ha).2
  complete owner increment made a ha := (h.ledger.complete _ _ _ _ ha).1
  failed b increment made e hb ho id hid e' he' hshown := by
    obtain ⟨e'', he'', hmade, t, ht, ho'⟩ := h.seen id e' he' hshown
    obtain rfl := h.ledger.eq_of_made he'' hb hmade hid
    obtain rfl : b.ticket = t := Option.some.inj ht
    cases h.ledger.once _ _ _ ho (ho'.resolve_right (by simp))
  succeeded b increment made hb ho := h.whole increment made b hb ho

/-- **Additions are all or nothing.** Whatever is asked of a service and whatever its drivers do, an
addition that was answered with success was put into the graph as a whole, while one message was
handled, and nothing was shown of one that was answered with an error. -/
theorem allOrNothing {c : IdentityConfiguration} {place : DataPlace} {s₀ : Service}
    (h : new c place = .ok s₀) (moves : List Move) :
    AllOrNothing s₀.graph (s₀.play moves).journal := by
  obtain ⟨r, -, blank⟩ := blank_of_new h
  have held := (steady_accounted s₀.graph).play_new h ⟨blank.books, trivial⟩ moves
  exact held.2.books.outcomes

/-- A service is started, and a remote party is added twice. -/
theorem allOrNothing_of_homonyms :
    ∃ s₀, new .default ⟨"/home", none⟩ = .ok s₀ ∧
      AllOrNothing s₀.graph (s₀.play [.request .start, .deliver,
        .request (.add .root .any { PartySection.blank with partyName := some "R" }),
        .request (.add .root .any { PartySection.blank with partyName := some "r" }),
        .deliver, .deliver]).journal := by
  obtain ⟨s₀, h⟩ := exists_new_default
  exact ⟨s₀, h, allOrNothing h _⟩

end Service

end PartyGraph
