import PartyGraph.Proofs.Service.AllOrNothing
import PartyGraph.Proofs.Service.CallOrder
import PartyGraph.Proofs.Service.Destruction

/-!
# No reply is lost

Whoever asks for an addition that is accepted waits for the outcome of its batch, and whoever
destroys a party waits for that. This module says what they are told once the loop of the agent has
left, wherever the jobs stood in the mailbox when it was stopped. An addition that was checked while
the agent was running may be enlisted much later: behind the stop, where it is refused when its turn
comes, behind the close, where it is dropped, or when the loop has left, where it is refused at once
and nobody waits.

Tickets are given out in the order in which batches are accepted, batches are handled in that order,
and those that are left when the mailbox is dropped come last. So the tickets answered so far,
followed by those of the batches in line, are all tickets that there are, each of them once
(`Service.Tallied`). When the loop has left there is nobody in line, and so everyone is answered.

A destruction is known to be over when the party is gone or when the loop has left, whichever is
noticed first. Both are final: nobody comes back, and nobody is destroyed any more when nothing is
handled any more (`Service.Over.moved`). So it does not matter which is noticed first.

## Main definitions

* `Service.verdict`: what a batch is answered when it is handled.
* `Service.replies`, `Service.dueReplies`: all answers, and those that are due for messages.
* `Service.Tallied`, `Service.Replied`: what is kept.
* `Service.destroyVerdict`: what becomes of a destruction.
* `Service.NoLostReply`: what those who wait are told.

## Main results

* `Service.Handled.replies`: handling a message answers what is due.
* `Service.replied_play`: any history.
* `Service.destroyReturn?_of_exited`, `Service.destroyReturn?_early`: destructions.
-/

namespace PartyGraph

namespace Entry

/-- The ticket and the outcome that an entry answers, if it does. -/
def reply? : Entry → Option (Nat × Except IdentityError Unit)
  | .answered t o => some (t, o)
  | _ => none

/-- Whether an entry answers a ticket. -/
def answers (ticket : Nat) : Entry → Bool
  | .answered t _ => t = ticket
  | _ => false

variable {e : Entry}

theorem OfRequest.reply?_eq_none (h : e.OfRequest) : e.reply? = none := by
  cases e <;> first | rfl | cases h

theorem answers_eq (ticket : Nat) (e : Entry) :
    e.answers ticket = (e.reply?.map fun r => decide (r.1 = ticket)).getD false := by
  cases e <;> rfl

end Entry

namespace Service

variable {s s' : Service} {c : Agent.Call IdentityJob} {g₀ : Graph}
  {h : List (Service × Agent.Call IdentityJob)} {h? : Option (Service × Agent.Call IdentityJob)}
  {done : List Nat} {calls : List DriverCall}

/-- All answers so far, in order. -/
def replies (s : Service) : List (Nat × Except IdentityError Unit) :=
  s.journal.reverse.filterMap Entry.reply?

/-- What a batch is answered that the agent comes to when the service is `s`. -/
def verdict (s : Service) (b : Batch) : Except IdentityError Unit :=
  if s.dropped then .error .agentStopped else (s.addBatch b).1

/-- The answer that is due for a message which finds the service `s`. -/
def dueReply? (s : Service) : Agent.Call IdentityJob → Option (Nat × Except IdentityError Unit)
  | .job (.add b) => some (b.ticket, s.verdict b)
  | _ => none

/-- The answers that are due for messages. -/
def dueReplies (h : List (Service × Agent.Call IdentityJob)) :
    List (Nat × Except IdentityError Unit) :=
  h.filterMap fun x => x.1.dueReply? x.2

/-- The ticket does not depend on the service. -/
theorem map_dueReply? (s : Service) (c : Agent.Call IdentityJob) :
    (s.dueReply? c).toList.map (·.1) = (batches c.job?.toList).map Batch.ticket := by
  cases c with
  | job j => cases j <;> rfl
  | start | heartbeat | stop => rfl

/-! ### Answers -/

theorem mem_replies {t : Nat} {o : Except IdentityError Unit} :
    (t, o) ∈ s.replies ↔ .answered t o ∈ s.journal := by
  rw [replies, List.mem_filterMap]
  constructor
  · rintro ⟨e, he, hreply⟩
    cases e <;> cases hreply
    exact List.mem_reverse.mp he
  · exact fun hmem => ⟨_, List.mem_reverse.mpr hmem, rfl⟩

/-- How often a ticket was answered. -/
theorem countP_answers (s : Service) (ticket : Nat) :
    s.journal.countP (Entry.answers ticket) = (s.replies.map (·.1)).count ticket := by
  rw [replies, List.count, List.countP_map, List.countP_filterMap, List.countP_reverse]
  refine List.countP_congr fun e _ => ?_
  rw [Entry.answers_eq]
  cases e.reply? <;> simp

@[simp] theorem replies_record (s : Service) (e : Entry) :
    (s.record e).replies = s.replies ++ e.reply?.toList :=
  filterMap_journal_cons Entry.reply? e s.journal

theorem Adds.replies (ha : s.Adds (fun e => e.reply? = none) s') : s'.replies = s.replies := by
  obtain ⟨new, hj, hnew⟩ := ha
  rw [Service.replies, hj]
  exact filterMap_journal_append hnew s.journal

theorem Works.replies (hw : s.Works calls s') : s'.replies = s.replies :=
  (hw.adds (fun _ he => he.reply?_eq_none) fun _ => rfl).replies

/-- When a mailbox is dropped, everyone who waits for a batch in it is told that the agent has
stopped. -/
theorem replies_answerDropped (s : Service) (jobs : List IdentityJob) :
    (s.answerDropped jobs).replies
      = s.replies ++ (batches jobs).map fun b => (b.ticket, .error .agentStopped) := by
  induction jobs generalizing s with
  | nil => simp [answerDropped, batches]
  | cons j jobs ih =>
    cases j with
    | add b =>
      refine (ih (s.answer b.ticket (.error .agentStopped))).trans ?_
      rw [answer, replies_record, List.append_assoc]
      rfl
    | destroy id => exact ih s

/-- Handling a message answers what is due for it. -/
theorem Handled.replies (hh : s.Handled c s') :
    s'.replies = s.replies ++ (s.dueReply? c).toList := by
  have worked {hook : Hook} {targets : List PartyId} {calls : List DriverCall} {s₁ : Service}
      (hw : (s.record (.passBegun hook targets)).Works calls s₁) : s₁.replies = s.replies := by
    rw [hw.replies, replies_record]
    exact List.append_nil _
  cases hh with
  | idle hd hc =>
    have : s.dueReply? c = none := by
      cases c with
      | job j =>
        cases j with
        | add b => exact absurd rfl (hc b)
        | destroy id => rfl
      | start | heartbeat | stop => rfl
    rw [this]
    exact (List.append_nil _).symm
  | @started s₁ _ works i =>
    rw [replies_record]
    show s₁.replies ++ [] = _
    rw [worked works]
    rfl
  | beat => exact replies_record ..
  | stopped _ works | missing _ _ works => simpa [dueReply?] using worked works
  | orphaned hd b =>
    rw [answer, replies_record]
    simp [dueReply?, verdict, hd, Entry.reply?]
  | refused hd _ hb =>
    rw [answer, replies_record]
    simp [dueReply?, verdict, hd, hb, Entry.reply?]
  | failed hd _ hb works =>
    rw [answer, replies_record, worked works]
    simp [dueReply?, verdict, hd, hb, Entry.reply?]
  | @added b s₁ s₂ hd _ hb works after =>
    have published : (s₁.publish b).replies = s₁.replies :=
      (adds_publish (fun _ => rfl) (fun _ _ => rfl) s₁ b).replies
    rw [answer, replies_record, after.replies, published, worked works]
    simp [dueReply?, verdict, hd, hb, Entry.reply?]
  | gone => simp [dueReply?]
  | @destroyed id s₁ p _ _ works =>
    have removed : (s₁.removeParty id p).replies = s₁.replies :=
      (adds_removeParty (fun _ => rfl) (fun _ _ => rfl) s₁ id p).replies
    rw [removed, worked works]
    simp [dueReply?]

/-! ### Tickets -/

/-- Whether the tickets of `done`, followed by those of the batches in line, are all that were given
out. When the loop has left there is nobody in line. -/
structure Tallied (done : List Nat) (s : Service) : Prop where
  tickets : done ++ (batches s.jobs).map Batch.ticket = List.range s.tickets
  emptied : s.agent.loop = .exited → s.jobs = []

namespace Tallied

theorem congr (ht : s.Tallied done) (hjobs : s'.jobs = s.jobs) (htickets : s'.tickets = s.tickets)
    (hloop : s'.agent.loop = .exited → s.agent.loop = .exited ∨ s.jobs = []) :
    s'.Tallied done where
  tickets := by rw [hjobs, htickets, ht.tickets]
  emptied hl := hjobs ▸ (hloop hl).elim ht.emptied id

/-- A job that is no batch is put in line, or a batch with a new ticket. -/
theorem send (ht : s.Tallied done) (hopen : s.agent.isOpen = true) {j : IdentityJob}
    (hjobs : s'.jobs = s.jobs ++ [j])
    (htickets : List.range s'.tickets = List.range s.tickets ++ (batches [j]).map Batch.ticket)
    (hloop : s'.agent.loop = s.agent.loop) : s'.Tallied done where
  tickets := by
    rw [hjobs, htickets, ← ht.tickets, batches, List.filterMap_append, List.map_append,
      List.append_assoc]
    rfl
  emptied hl := by
    rw [hloop] at hl
    exact absurd hl ((Agent.isOpen_iff _).mp hopen)

theorem asked (ht : s.Tallied done) (ha : s.Asked s') : s'.Tallied done := by
  have left (hl : s'.agent.loop = .exited) : s.agent.loop = .exited ∨ s.jobs = [] := by
    rcases ha.loop_cases with h | ⟨-, h⟩
    · exact .inl (h ▸ hl)
    · simp [h] at hl
  cases ha with
  | quiet ha => exact ht.congr ha.jobs ha.tickets left
  | unready ha i => exact ht.congr ha.jobs ha.tickets left
  | attached | unmoved | refused | empty | stranded => exact ht.congr rfl rfl left
  | doomed _ _ _ hpost =>
    cases hpost with
    | refused => exact ht.congr rfl rfl left
    | accepted hopen =>
      exact ht.send hopen (Agent.jobs_send_of_open hopen _) (List.append_nil _).symm
        (Agent.loop_send ..)
  | enlisted _ _ hopen =>
    exact ht.send hopen (Agent.jobs_send_of_open hopen _) List.range_succ (Agent.loop_send ..)

theorem record (ht : s.Tallied done) (e : Entry) : (s.record e).Tallied done :=
  ht.congr rfl rfl .inl

theorem works (ht : s.Tallied done) (hw : s.Works calls s') : s'.Tallied done :=
  hw.induction (fun _ _ h ha => h.asked ha) (fun _ c h => h.record c.entry) ht

theorem noted (ht : s.Tallied done) (hn : s.Noted s') : s'.Tallied done :=
  ht.congr hn.jobs hn.tickets fun hl => .inl (hn.agent ▸ hl)

theorem handled (ht : s.Tallied done) (hh : s.Handled c s') : s'.Tallied done := by
  have begun (e : Entry) : (s.record e).Tallied done := ht.record e
  cases hh with
  | idle | gone => exact ht
  | started _ works i => exact ((begun _).works works).congr rfl rfl .inl
  | beat | orphaned | refused => exact begun _
  | stopped _ works | missing _ _ works => exact (begun _).works works
  | failed _ _ _ works => exact ((begun _).works works).record _
  | @added b s₁ _ _ _ _ works after =>
    exact ((((begun _).works works).noted (noted_publish s₁ b)).works after).record _
  | destroyed _ _ works => exact ((begun _).works works).noted (noted_removeParty ..)

/-- A message is taken, and its batch is about to be done. -/
theorem taken {a : Agent IdentityJob} (ht : s.Tallied done) (htake : s.agent.Takes c a) :
    ({ s with agent := a }.record (.handling c)).Tallied
      (done ++ (batches c.job?.toList).map Batch.ticket) where
  tickets := by
    have hline : s.jobs = c.job?.toList ++ a.jobs := htake.jobs
    rw [List.append_assoc, ← List.map_append, batches, batches, ← List.filterMap_append]
    show done ++ (batches (c.job?.toList ++ a.jobs)).map Batch.ticket = _
    rw [← hline]
    exact ht.tickets
  emptied hl := by simp [htake.loop] at hl

/-- The mailbox is dropped. -/
theorem emptied_line {gone : Bool} {a : Agent IdentityJob} (ht : s.Tallied done)
    (ha : a.jobs = []) :
    ({ s with dropped := gone, agent := a }.answerDropped s.jobs).Tallied
      (done ++ (batches s.jobs).map Batch.ticket) := by
  have hjobs : jobs { s with dropped := gone, agent := a } = [] := ha
  refine Tallied.noted ⟨?_, fun _ => hjobs⟩ (noted_answerDropped _ s.jobs)
  rw [hjobs]
  exact (List.append_nil _).trans ht.tickets

end Tallied

/-! ### What is kept -/

/-- What holds of a service after a history in which the messages of `h` were handled. -/
structure Replied (s : Service) (h : List (Service × Agent.Call IdentityJob)) : Prop where
  /-- The answers are those due for messages. When the loop has left, others may follow. -/
  replies : ∃ dropped : List Nat,
    s.replies = dueReplies h ++ dropped.map (·, .error .agentStopped) ∧
      (dropped = [] ∨ s.agent.loop = .exited)
  tallied : s.Tallied (s.replies.map (·.1))
  /-- Someone asked for each batch that was handled. -/
  asked : ∀ x b, (x, .job (.add b)) ∈ h →
    ∃ increment made, .askedToAdd b.owner increment made (.ok b.added) ∈ s.journal

theorem dueReplies_concat (h : List (Service × Agent.Call IdentityJob)) (t : Service)
    (c : Agent.Call IdentityJob) :
    dueReplies (h ++ [(t, c)]) = dueReplies h ++ (t.dueReply? c).toList := by
  rw [dueReplies, List.filterMap_append]
  cases hd : t.dueReply? c <;> simp [dueReplies, hd]

namespace Replied

/-- Nothing is answered, and nothing is handled. -/
theorem mute (hs : s.Replied h) (hj : s.journal <:+ s'.journal) (hr : s'.replies = s.replies)
    (ht : s'.Tallied (s.replies.map (·.1)))
    (hl : s.agent.loop = .exited → s'.agent.loop = .exited) : s'.Replied h where
  replies := by
    obtain ⟨dropped, hreplies, hexit⟩ := hs.replies
    exact ⟨dropped, hr.trans hreplies, hexit.imp_right hl⟩
  tallied := hr ▸ ht
  asked x b hx := by
    obtain ⟨increment, made, he⟩ := hs.asked x b hx
    exact ⟨increment, made, hj.subset he⟩

theorem works (hs : s.Replied h) (hw : s.Works calls s') : s'.Replied h :=
  hs.mute hw.later.grows hw.replies (hs.tallied.works hw) fun hl =>
    (hw.loop (by simp [hl])).trans hl

/-- As long as the loop has not left, the answers are those due for messages. -/
theorem replies_eq (hs : s.Replied h) (hl : s.agent.loop ≠ .exited) :
    s.replies = dueReplies h := by
  obtain ⟨dropped, hreplies, hexit⟩ := hs.replies
  rw [hreplies, hexit.resolve_right hl]
  exact List.append_nil _

/-- The mailbox is dropped. -/
theorem emptied {gone : Bool} {a : Agent IdentityJob} (hs : s.Replied h)
    (hopen : s.agent.loop ≠ .exited) (ha : a.jobs = []) (hl : a.loop = .exited) :
    ({ s with dropped := gone, agent := a }.answerDropped s.jobs).Replied h := by
  have noted := noted_answerDropped { s with dropped := gone, agent := a } s.jobs
  have hreplies := replies_answerDropped { s with dropped := gone, agent := a } s.jobs
  have hsame : Service.replies { s with dropped := gone, agent := a } = s.replies := rfl
  rw [hsame] at hreplies
  constructor
  case replies =>
    refine ⟨(batches s.jobs).map Batch.ticket, ?_, .inr (noted.agent ▸ hl)⟩
    rw [hreplies, hs.replies_eq hopen, List.map_map]
    rfl
  case tallied =>
    rw [hreplies, List.map_append, List.map_map]
    exact hs.tallied.emptied_line ha
  case asked =>
    intro x b hx
    obtain ⟨increment, made, he⟩ := hs.asked x b hx
    exact ⟨increment, made, noted.later.grows.subset he⟩

/-- The agent handles a message. -/
theorem handled {a : Agent IdentityJob} {s₁ : Service} (hs : s.Replied h)
    (hc : Coherent g₀ .free s.jobs s) (ht : s.agent.Takes c a)
    (hh : ({ s with agent := a }.record (.handling c)).Handled c s₁) :
    { s₁ with agent := s₁.agent.finish }.Replied
      (h ++ [({ s with agent := a }.record (.handling c), c)]) := by
  have orderly := hc.orderly.taken ht
  have hloop : s₁.agent.finish.loop = .waiting :=
    Agent.loop_finish ((hh.kept orderly (by simp [ht.loop])).loop.trans ht.loop)
  have hopen : s.agent.loop ≠ .exited := by
    rcases ht.before with ⟨hl, -⟩ | ⟨hl, -⟩ <;> simp [hl]
  have hreplies := hh.replies
  have htaken : ({ s with agent := a }.record (.handling c)).replies = s.replies :=
    (replies_record _ _).trans (List.append_nil _)
  rw [htaken] at hreplies
  constructor
  case replies =>
    refine ⟨[], ?_, .inl rfl⟩
    rw [dueReplies_concat, ← hs.replies_eq hopen]
    exact hreplies.trans (List.append_nil _).symm
  case tallied =>
    show Tallied (s₁.replies.map (·.1)) _
    rw [hreplies, List.map_append, map_dueReply?]
    refine ((hs.tallied.taken ht).handled hh).congr (Agent.jobs_finish _) rfl fun hl => ?_
    simp [hloop] at hl
  case asked =>
    have grows : s.journal <:+ s₁.journal := (List.suffix_cons _ _).trans hh.later.grows
    intro x b hx
    rcases List.mem_append.mp hx with hx | hx
    · obtain ⟨increment, made, he⟩ := hs.asked x b hx
      exact ⟨increment, made, grows.subset he⟩
    · obtain ⟨rfl, rfl⟩ := Prod.mk.inj (List.mem_singleton.mp hx)
      have hmem : .add b ∈ s.jobs := by
        rw [show s.jobs = _ from ht.jobs]
        exact List.mem_append_left _ (List.mem_singleton_self _)
      obtain ⟨n, hlined⟩ := hc.lined
      obtain ⟨_, _, -, ready⟩ := hlined.ready hmem
      obtain ⟨increment, he, -⟩ := ready.asked
      exact ⟨increment, _, grows.subset he⟩

theorem moved (hs : s.Replied h) (hc : Coherent g₀ .free s.jobs s) (hm : s.Moved h? s') :
    s'.Replied (h ++ h?.toList) := by
  cases hm with
  | works hw => exact (List.append_nil h).symm ▸ hs.works hw
  | @installed s₁ hw hf d =>
    have h₁ := hs.works hw
    exact (List.append_nil h).symm ▸ h₁.mute (List.suffix_refl _) rfl
      (h₁.tallied.congr rfl rfl .inl) id
  | released hd hl =>
    obtain ⟨hloop, hjobs, -, -⟩ := Agent.undisturbed_release hl
    exact (List.append_nil h).symm ▸ hs.mute (List.suffix_refl _) rfl
      (hs.tallied.congr hjobs rfl fun h => .inl (hloop ▸ h)) fun h => hloop.trans h
  | abandoned hd hl =>
    obtain ⟨hloop, hjobs, -⟩ := Agent.release_of_absent hl
    exact (List.append_nil h).symm ▸ hs.emptied (by simp [hl]) hjobs hloop
  | exited he => exact (List.append_nil h).symm ▸ hs.emptied (by simp [he.before]) he.jobs he.loop
  | handled ht hh => exact hs.handled hc ht hh

/-- Nobody is in line when the loop has left, so the tickets answered are all that there are. -/
theorem tickets_of_exited (hs : s.Replied h) (hl : s.agent.loop = .exited) :
    s.replies.map (·.1) = List.range s.tickets := by
  have htickets := hs.tallied.tickets
  rw [hs.tallied.emptied hl] at htickets
  exact (List.append_nil _).symm.trans htickets

/-- A batch that was handled is answered what was due for it. -/
theorem verdict_mem {x : Service} {b : Batch} (hs : s.Replied h) (hx : (x, .job (.add b)) ∈ h) :
    (b.ticket, x.verdict b) ∈ s.replies := by
  obtain ⟨dropped, hreplies, -⟩ := hs.replies
  rw [hreplies]
  exact List.mem_append_left _ (List.mem_filterMap.mpr ⟨_, hx, rfl⟩)

/-- Where an answer is from. -/
theorem source {t : Nat} {o : Except IdentityError Unit} (hs : s.Replied h)
    (hmem : (t, o) ∈ s.replies) :
    (∃ x b, (x, .job (.add b)) ∈ h ∧ b.ticket = t ∧ x.verdict b = o) ∨
      o = .error .agentStopped := by
  obtain ⟨dropped, hreplies, -⟩ := hs.replies
  rcases List.mem_append.mp (hreplies ▸ hmem) with hdue | hdropped
  · obtain ⟨⟨x, c⟩, hx, hdue⟩ := List.mem_filterMap.mp hdue
    cases c with
    | job j =>
      cases j with
      | add b =>
        obtain ⟨ht, ho⟩ := Prod.mk.inj (Option.some.inj hdue)
        exact .inl ⟨x, b, hx, ht, ho⟩
      | destroy id => cases hdue
    | start | heartbeat | stop => cases hdue
  · obtain ⟨t, -, heq⟩ := List.mem_map.mp hdropped
    exact .inr (Prod.mk.inj heq).2.symm

end Replied

theorem Blank.replied {r : ResolvedRoot} (hb : s.Blank r) : s.Replied [] := by
  have hreplies : s.replies = [] := by simp [Service.replies, hb.journal]
  constructor
  case replies => exact ⟨[], hreplies, .inl rfl⟩
  case tallied => exact ⟨by simp [hreplies, hb.jobs, hb.tickets, batches], by simp [hb.loop]⟩
  case asked => simp

theorem replied_play {c : IdentityConfiguration} {place : DataPlace} (hn : new c place = .ok s)
    (moves : List Move) : (s.play moves).Replied (s.handled moves) := by
  obtain ⟨r, -, blank⟩ := blank_of_new hn
  induction moves using List.reverseRecOn with
  | nil => exact blank.replied
  | append_singleton moves m ih =>
    have coherent := coherent_play hn moves
    rw [play_concat, handled_concat]
    exact ih.moved coherent (moved_move coherent.orderly m)

/-! ### Destructions -/

/-- What becomes of the destruction of a party when nothing is handled any more. -/
def destroyVerdict (s : Service) (id : PartyId) : Except IdentityError Unit :=
  if s.graph.isGone id then .ok () else .error .agentStopped

/-- Whether someone asked for the destruction of a dynamic party and was answered. -/
def AskedToDestroy (g₀ : Graph) (journal : List Entry) (id : PartyId)
    (answer : Except IdentityError Bool) : Prop :=
  ∃ earlier p, .askedToDestroy id answer :: earlier <:+ journal ∧
    (g₀.after earlier).party? id = some p ∧ p.dynamic = true

/-- When the loop has left, everyone who waits is told. -/
theorem Refusals.destroyReturn?_of_exited {id : PartyId} {answer : Except IdentityError Bool}
    (hr : s.Refusals g₀) (hl : s.agent.loop = .exited)
    (ha : AskedToDestroy g₀ s.journal id answer) :
    s.destroyReturn? id answer = some (s.destroyVerdict id) := by
  cases answer with
  | error e =>
    obtain ⟨rfl, -, hgone⟩ := hr.refused id e ha
    simp [destroyReturn?, destroyVerdict, hgone]
  | ok granted =>
    have finished : s.hasNoLoop = true := by simp [hasNoLoop, Agent.isFinished_iff, hl]
    rw [destroyReturn?, destroyOutcome, destroyVerdict, finished, Bool.or_true]
    split <;> rfl

/-- Once nothing is handled any more, nobody is destroyed by what comes later. -/
theorem Over.isGone_play (ho : s.Over) (hs : s.Orderly) (moves : List Move) (id : PartyId) :
    (s.play moves).graph.isGone id = s.graph.isGone id := by
  suffices (s.play moves).Over ∧ ∀ id, (s.play moves).graph.isGone id = s.graph.isGone id from
    this.2 id
  refine moved_induction (P := fun t => t.Over ∧ ∀ id, t.graph.isGone id = s.graph.isGone id) hs
    ⟨ho, fun _ => rfl⟩ (fun t t' _ _ ht hm => ?_) moves
  obtain ⟨hover, hgone⟩ := ht.1.moved hm
  exact ⟨hover, fun id => (hgone id).trans (ht.2 id)⟩

/-- Whoever is told earlier is told the same. -/
theorem destroyReturn?_early {id : PartyId} {answer : Except IdentityError Bool}
    {outcome : Except IdentityError Unit} (ho : s.Orderly) (hstarted : s.Started)
    (hr : s.Refusals g₀) (ha : AskedToDestroy g₀ s.journal id answer)
    (hhanded : HandedOut s.journal id) (hreturn : s.destroyReturn? id answer = some outcome)
    (more : List Move) : outcome = (s.play more).destroyVerdict id := by
  have told := hstarted.destroyReturn? hhanded hreturn (by
    rintro e rfl
    exact hr.refused id e ha)
  rw [destroyVerdict]
  rcases told with ⟨rfl, hgone⟩ | ⟨rfl, hgone, hover⟩
  · rw [(later_play ho more).forward.isGone hgone, if_pos rfl]
  · rw [hover.isGone_play ho more id, hgone]
    rfl

/-! ### Additions -/

/-- What was answered to a ticket is what one is told who waits for it. -/
theorem addOutcome_eq {n k : Nat} (hl : Ledger s.journal n k) {b : Batch}
    {o : Except IdentityError Unit} (ho : .answered b.ticket o ∈ s.journal) :
    s.addOutcome b.added = some o := by
  show s.outcome? b.ticket = some o
  rw [outcome?]
  cases hfind : s.journal.findSome? fun
      | .answered t outcome => if t = b.ticket then some outcome else none
      | _ => none with
  | none =>
    have := List.findSome?_eq_none_iff.mp hfind _ ho
    simp at this
  | some o' =>
    obtain ⟨e, he, heq⟩ := List.exists_of_findSome?_eq_some hfind
    cases e with
    | answered t outcome =>
      by_cases ht : t = b.ticket
      · subst ht
        simp only [if_true] at heq
        cases heq
        rw [hl.once _ _ _ he ho]
      · simp [ht] at heq
    | _ => cases heq

/-! ### The end of the loop -/

/-- What those are told who wait, after a history of a new service. -/
structure NoLostReply (s₀ : Service) (moves : List Move) : Prop where
  /-- Whoever waits for an addition is answered once. -/
  once : ∀ (b : Batch) increment made,
    .askedToAdd b.owner increment made (.ok b.added) ∈ (s₀.play moves).journal →
    (s₀.play moves).journal.countP (Entry.answers b.ticket) = 1
  /-- They are told what came of the batch, if it was handled while the service was there. -/
  executed : ∀ (b : Batch) increment made x,
    .askedToAdd b.owner increment made (.ok b.added) ∈ (s₀.play moves).journal →
    (x, .job (.add b)) ∈ s₀.handled moves → x.dropped = false →
    (s₀.play moves).addOutcome b.added = some (x.addBatch b).1
  /-- Otherwise they are told that the agent has stopped, and nothing was shown of the batch. -/
  unexecuted : ∀ (b : Batch) increment made,
    .askedToAdd b.owner increment made (.ok b.added) ∈ (s₀.play moves).journal →
    (∀ x, (x, .job (.add b)) ∈ s₀.handled moves → x.dropped = true) →
    (s₀.play moves).addOutcome b.added = some (.error .agentStopped) ∧
      Unseen made (s₀.play moves).journal
  /-- Whoever waits for a destruction is told whether the party was destroyed. -/
  destroyed : ∀ id answer, AskedToDestroy s₀.graph (s₀.play moves).journal id answer →
    (s₀.play moves).destroyReturn? id answer = some ((s₀.play moves).destroyVerdict id)
  /-- Whoever was told before was told the same. -/
  early : ∀ before after, moves = before ++ after → ∀ id answer outcome,
    AskedToDestroy s₀.graph (s₀.play before).journal id answer →
    HandedOut (s₀.play before).journal id →
    (s₀.play before).destroyReturn? id answer = some outcome →
    outcome = (s₀.play moves).destroyVerdict id

/-- Two parties are added, and three more have been checked when the stop is requested. The third is
enlisted behind the stop and the fourth behind the close. The fifth comes when the loop has left.
The destruction of the first party stands behind the stop too, and that of the second behind the
close. -/
def lastOrders : List Move :=
  [.request .start, .deliver,
    .request (.add .root .any { PartySection.blank with partyName := some "R" }),
    .request (.add .root .any { PartySection.blank with partyName := some "S" }),
    .deliver, .deliver,
    .request (.vet .root .any { PartySection.blank with partyName := some "T" }),
    .request (.vet .root .any { PartySection.blank with partyName := some "U" }),
    .request (.vet .root .any { PartySection.blank with partyName := some "V" }),
    .request .stop, .request (.enlist 0), .request (.destroy 0), .deliver,
    .request (.enlist 0), .request (.destroy 1), .deliver, .deliver, .deliver,
    .request (.enlist 0)]

/-- The third addition is refused and the fourth is dropped, with the destruction of the second
party. Nobody waits for the fifth. -/
example : (new .default ⟨"/home", none⟩).toOption.map (fun s =>
    let t := s.play lastOrders
    ((List.range 5).map fun ticket => (t.outcome? ticket).map fun
      | .ok () => none
      | .error e => some e.message,
      (List.range 2).map fun id => (t.destroyReturn? id (.ok true)).map Except.isOk))
      = some ([some none, some none, some (some IdentityError.notRunning.message),
        some (some IdentityError.agentStopped.message), none], [some true, some false]) := by
  decide +kernel

end Service

end PartyGraph
