import PartyGraph.Proofs.Service.Replies

/-!
# Additions after a refused start

An agent can be started once. When drivers are missing at the first attempt it is refused, and there
is no second one. But the agent looks just like one that may still be started: both wait for their
start, and both take messages. An addition is refused when the agent was stopped, and what it is
asked to do before the start waits in its mailbox; nobody looks whether there will be a start.

So an addition that passes all checks is accepted after a refused start, too, and whoever asks for
it waits for an outcome that nobody works on. Only when the last owner lets go of the service is the
mailbox dropped, and then they are told that the agent has stopped. All other additions are answered
at once: those that are refused, and those of no parties.

## Main definitions

* `Agent.Vetoed`: the one attempt to start was refused.
* `Service.addReturn?`: what one is told who asks for an addition.
* `Service.HeardAtOnce`, `Service.WaitsInVain`: what may become of a request for an addition.

## Main results

* `Agent.Vetoed.play`: a refused start is final.
* `Service.vetoed_of_start`, `Service.start_of_vetoed`: what is told whoever starts the service.
* `Service.StartRefused.play`: nothing is handled, and no message leaves the mailbox.
* `Service.afterRefusal`: which additions are answered at once.
-/

namespace PartyGraph

namespace Agent

variable {J : Type} {a a' : Agent J} {m : Move J} {c? : Option (Call J)} {new : List (Message J)}

/-- Whether the one attempt to start the agent was refused. -/
structure Vetoed (a : Agent J) : Prop where
  attempted : a.startAttempted = true
  waits : a.status = .waitingForStart

theorem Vetoed.effect (h : a.Vetoed) (he : Effect a m a' c? new) : a'.Vetoed where
  attempted := he.startAttempted h.attempted
  waits := by
    cases he with
    | starts _ before => exact absurd (h.attempted.symm.trans before) (by simp)
    | halts _ _ running => exact absurd (h.waits.symm.trans running) (by simp)
    | rests _ _ status | sends _ _ _ _ _ status | closes _ _ _ status => exact status.trans h.waits
    | stops _ _ _ _ _ _ status => exact status.trans h.waits
    | begins _ _ _ status | handles _ _ _ _ _ _ status | leaves _ _ _ _ _ status =>
      exact status.trans h.waits
    | vanishes _ _ _ _ status => exact status.trans h.waits

theorem startAttempted_tryStart (a : Agent J) (approved : Bool) (now : Nat) :
    (a.tryStart approved now).startAttempted = true := by
  rw [tryStart]
  split
  · assumption
  · split <;> rfl

/-- A refused start is final. -/
theorem Vetoed.play (h : a.Vetoed) (moves : List (Move J)) : (a.play moves).2.Vetoed := by
  induction moves using List.reverseRecOn with
  | nil => exact h
  | append_singleton moves m ih =>
    rw [play_concat]
    exact ih.effect (effect_move _ m)

/-- An agent that waits for its start has waited all the time. -/
theorem waiting_of_play (moves : List (Move J))
    (hw : (a.play moves).2.status = .waitingForStart) : a.status = .waitingForStart := by
  by_contra hs
  exact started_play hs moves hw

/-- Where no loop runs, none takes a message. -/
theorem Effect.unmoved (he : Effect a m a' c? new) (hl : a.loop = .absent ∨ a.loop = .exited)
    (hm : m ≠ .release) (hw : a'.status = .waitingForStart) :
    a'.loop = a.loop ∧ a.mailbox <+: a'.mailbox := by
  cases he with
  | rests loop mailbox =>
    refine ⟨?_, mailbox ▸ List.prefix_refl _⟩
    rcases loop with loop | ⟨c, before, -⟩
    · exact loop
    · simp [before] at hl
  | sends _ _ _ loop mailbox => exact ⟨loop, mailbox ▸ List.prefix_append ..⟩
  | stops _ loop _ _ mailbox => exact ⟨loop, mailbox ▸ List.prefix_append ..⟩
  | halts _ _ _ status | starts _ _ _ _ status => simp [status] at hw
  | vanishes move => exact absurd move hm
  | closes before | begins before | handles _ _ before | leaves _ before => simp [before] at hl

/-- An agent without a loop keeps its messages while it waits for its start and is not let go. -/
theorem unmoved_play {moves : List (Move J)} (hl : a.loop = .absent ∨ a.loop = .exited)
    (hm : .release ∉ moves) (hw : (a.play moves).2.status = .waitingForStart) :
    (a.play moves).2.loop = a.loop ∧ a.mailbox <+: (a.play moves).2.mailbox := by
  induction moves using List.reverseRecOn with
  | nil => exact ⟨rfl, List.prefix_refl _⟩
  | append_singleton moves m ih =>
    rw [play_concat] at hw ⊢
    obtain ⟨loop, mailbox⟩ := ih (fun h => hm (List.mem_append_left _ h)) (waiting_of_play [m] hw)
    obtain ⟨loop', mailbox'⟩ := (effect_move (a.play moves).2 m).unmoved (loop ▸ hl)
      (by rintro rfl; simp at hm) hw
    exact ⟨loop'.trans loop, mailbox.trans mailbox'⟩

theorem Requested.release_not_mem {startable : Bool} {moves : List (Move J)}
    (h : ∀ m ∈ moves, m.isRequest = true ∧ (m.isTryStart = true → startable = true)) :
    .release ∉ moves :=
  fun hmem => by simpa [Move.isRequest] using (h _ hmem).1

end Agent

namespace Service

variable {s s' s₀ : Service} {h? : Option (Service × Agent.Call IdentityJob)}
  {calls : List DriverCall} {owner : PartyRef} {shape : AddShape} {increment : PartySection}
  {parties : Parties}

/-! ### Refused starts -/

/-- A start that is answered as refused was the one attempt, or came after it. -/
theorem vetoed_of_start (h : s.start.1 = .error .startRefused) : s.start.2.agent.Vetoed := by
  rw [start] at h ⊢
  by_cases hd : s.dropped = true
  · simp [hd] at h
  rw [if_neg hd] at h ⊢
  generalize (if s.agent.startAttempted then s else s.closeRegistry) = t at h ⊢
  dsimp only at h ⊢
  cases hs : (t.agent.tryStart t.registry.isComplete t.now).status with
  | running | stopped => simp [hs] at h
  | waitingForStart => exact ⟨Agent.startAttempted_tryStart .., hs⟩

/-- Whoever tries again is refused again, and nothing changes. -/
theorem start_of_vetoed (hd : s.dropped = false) (hv : s.agent.Vetoed) :
    s.start = (.error .startRefused, s) := by
  have same : s.agent.tryStart s.registry.isComplete s.now = s.agent := by
    rw [Agent.tryStart, if_pos hv.attempted]
  rw [start, if_neg (by simp [hd])]
  simp only [if_pos hv.attempted, same, hv.waits]

/-- Whether an agent that waits for its start has no loop, and is there as long as the service
is. -/
def Dormant (s : Service) : Prop :=
  s.agent.status = .waitingForStart → s.agent.loop = if s.dropped then .exited else .absent

theorem Dormant.loop (h : s.Dormant) (hw : s.agent.status = .waitingForStart) :
    s.agent.loop = .absent ∨ s.agent.loop = .exited := by
  rw [h hw]
  cases s.dropped <;> simp

theorem Dormant.unmoved (h : s.Dormant) (hw : s.Works calls s')
    (hs : s'.agent.status = .waitingForStart) :
    s.agent.status = .waitingForStart ∧ s'.agent.loop = s.agent.loop ∧
      s.agent.mailbox <+: s'.agent.mailbox := by
  obtain ⟨moves, ha, hall⟩ := hw.agent
  rw [ha] at hs ⊢
  have waited := Agent.waiting_of_play moves hs
  exact ⟨waited, Agent.unmoved_play (h.loop waited) (Agent.Requested.release_not_mem hall) hs⟩

theorem Dormant.works (h : s.Dormant) (hw : s.Works calls s') : s'.Dormant := by
  intro hs
  obtain ⟨waited, loop, -⟩ := h.unmoved hw hs
  rw [loop, hw.dropped, h waited]

theorem Dormant.moved (h : s.Dormant) (ho : s.Orderly) (hm : s.Moved h? s') : s'.Dormant := by
  cases hm with
  | works hw => exact h.works hw
  | installed hw =>
    have h₁ := h.works hw
    exact h₁
  | released hd hl =>
    intro hs
    have waited : s.agent.status = .waitingForStart :=
      Agent.waiting_of_play [.release, .sendStop] hs
    exact absurd ((h waited).trans (by simp [hd])) hl
  | abandoned hd hl =>
    intro _
    rw [(noted_answerDropped ..).agent, (noted_answerDropped ..).dropped]
    exact (Agent.release_of_absent hl).1
  | exited he =>
    intro hs
    rw [(noted_answerDropped ..).agent] at hs
    simpa [he.before] using h.loop (he.status.symm.trans hs)
  | @handled c a s₁ ht hh =>
    -- What takes a message was started, and stays so.
    have started : a.status ≠ .waitingForStart := by
      intro hs
      have loop := h.loop (ht.status.symm.trans hs)
      rcases ht.before with ⟨before, -⟩ | ⟨before, -⟩ <;> simp [before] at loop
    obtain ⟨moves, hagent, -⟩ := (hh.kept (ho.taken ht) (by simp [ht.loop])).agent
    intro hs
    refine absurd hs (Agent.started_play ?_ [.finish])
    exact hagent ▸ Agent.started_play started moves

theorem dormant_play {c : IdentityConfiguration} {place : DataPlace} (h : new c place = .ok s)
    (moves : List Move) : (s.play moves).Dormant := by
  obtain ⟨r, -, blank⟩ := blank_of_new h
  have start : s.Dormant := fun _ => by simp [blank.loop, blank.dropped]
  exact moved_induction blank.orderly start (fun _ _ _ ho ht hm => ht.moved ho hm) moves

/-- What holds of a service that was refused the start. -/
structure StartRefused (s : Service) : Prop where
  orderly : s.Orderly
  dormant : s.Dormant
  vetoed : s.agent.Vetoed

namespace StartRefused

theorem loop (h : s.StartRefused) : s.agent.loop = if s.dropped then .exited else .absent :=
  h.dormant h.vetoed.waits

/-- Nothing is handled, and no message leaves the mailbox until the service is let go. -/
theorem moved (h : s.StartRefused) (hm : s.Moved h? s') :
    h? = none ∧ s'.StartRefused ∧
      (s'.dropped = false → s.dropped = false ∧ s.agent.mailbox <+: s'.agent.mailbox) := by
  have refused (hv : s'.agent.Vetoed) : s'.StartRefused :=
    ⟨hm.orderly h.orderly, h.dormant.moved h.orderly hm, hv⟩
  have works {t : Service} (hw : s.Works [] t) :
      t.agent.Vetoed ∧ (t.dropped = false → s.dropped = false ∧
        s.agent.mailbox <+: t.agent.mailbox) := by
    obtain ⟨moves, ha, -⟩ := hw.agent
    have hv : t.agent.Vetoed := ha ▸ h.vetoed.play moves
    exact ⟨hv, fun hd => ⟨hw.dropped.symm.trans hd, (h.dormant.unmoved hw hv.waits).2.2⟩⟩
  have idle := h.dormant.loop h.vetoed.waits
  cases hm with
  | works hw | installed hw => exact ⟨rfl, refused (works hw).1, (works hw).2⟩
  | released => exact ⟨rfl, refused (h.vetoed.play [.release, .sendStop]), fun hd => nomatch hd⟩
  | abandoned =>
    have noted := noted_answerDropped { s with dropped := true, agent := s.agent.release } s.jobs
    refine ⟨rfl, refused ?_, fun hd => nomatch noted.dropped.symm.trans hd⟩
    exact noted.agent ▸ h.vetoed.play [.release, .sendStop]
  | exited he => simp [he.before] at idle
  | handled ht => rcases ht.before with ⟨before, -⟩ | ⟨before, -⟩ <;> simp [before] at idle

theorem play (h : s.StartRefused) (moves : List Move) :
    s.handled moves = [] ∧ (s.play moves).StartRefused ∧
      ((s.play moves).dropped = false →
        s.dropped = false ∧ s.agent.mailbox <+: (s.play moves).agent.mailbox) := by
  induction moves using List.reverseRecOn with
  | nil => exact ⟨rfl, h, fun hd => ⟨hd, List.prefix_refl _⟩⟩
  | append_singleton moves m ih =>
    obtain ⟨handled, refused, mailbox⟩ := ih
    obtain ⟨hnone, refused', mailbox'⟩ := refused.moved (moved_move refused.orderly m)
    rw [play_concat, handled_concat, handled, hnone]
    refine ⟨rfl, refused', fun hd => ?_⟩
    obtain ⟨hd', hprefix'⟩ := mailbox' hd
    obtain ⟨hd₀, hprefix⟩ := mailbox hd'
    exact ⟨hd₀, hprefix.trans hprefix'⟩

end StartRefused

theorem startRefused_of_vetoed {c : IdentityConfiguration} {place : DataPlace}
    (h : new c place = .ok s₀) (moves : List Move) (hv : (s₀.play moves).agent.Vetoed) :
    (s₀.play moves).StartRefused :=
  ⟨orderly_play (coherent_of_new h).orderly moves, dormant_play h moves, hv⟩

/-! ### Requests for additions -/

/-- What one is told who asks for an addition, once it is known, where `answer` is that to the
request. -/
def addReturn? (s : Service) :
    (answer : Except IdentityError Added) → Option (Except IdentityError Unit)
  | .error e => some (.error e)
  | .ok added => s.addOutcome added

/-- Nothing is to be done for an addition that is refused or has no parties. -/
theorem add_of_idle (h : ∀ parties, s.checkAddition owner shape increment = .ok parties →
      parties.isEmpty = true) :
    (s.add owner shape increment).2.agent = s.agent ∧
      ((∃ e, (s.add owner shape increment).1 = .error e) ∨
        (s.add owner shape increment).1 = .ok ⟨[], [], none⟩) := by
  rw [add, vet]
  cases hcheck : s.checkAddition owner shape increment with
  | error e => exact ⟨rfl, .inl ⟨e, rfl⟩⟩
  | ok parties =>
    cases hc : s.graph.configuration? owner with
    | none => exact ⟨rfl, .inl ⟨_, rfl⟩⟩
    | some c =>
      dsimp only
      rw [if_pos (h parties hcheck)]
      exact ⟨rfl, .inr rfl⟩

/-- Any other addition is given to the agent if its mailbox is open. -/
theorem add_of_admitted (hcheck : s.checkAddition owner shape increment = .ok parties)
    (hne : parties.isEmpty = false) (hopen : s.agent.isOpen = true) :
    ∃ b : Batch, (s.add owner shape increment).1 = .ok b.added ∧
      (s.add owner shape increment).2.agent = s.agent.send (.job (.add b)) ∧
      ∃ made, .askedToAdd b.owner increment made (.ok b.added)
        ∈ (s.add owner shape increment).2.journal := by
  obtain ⟨-, c, hadmits⟩ := (checkAddition_eq_ok hcheck).resolve_left (by simp [hne])
  rw [add_of_checked hcheck hadmits.configured hne, postBatch_of_open hopen]
  exact ⟨s.batch owner c parties, rfl, rfl, _, List.mem_cons_self⟩

/-- Nobody is told anything about a batch that waits in the mailbox. -/
theorem addOutcome_of_waiting {c : IdentityConfiguration} {place : DataPlace}
    (h : new c place = .ok s₀) (moves : List Move) {b : Batch}
    (hb : .job (.add b) ∈ (s₀.play moves).agent.mailbox) :
    (s₀.play moves).addOutcome b.added = none := by
  obtain ⟨r, -, blank⟩ := blank_of_new h
  have books := ((steady_accounted s₀.graph).play_new h ⟨blank.books, trivial⟩ moves).2.books
  have waits : b ∈ batches (s₀.play moves).jobs :=
    List.mem_filterMap.mpr ⟨_, List.mem_filterMap.mpr ⟨_, hb, rfl⟩, rfl⟩
  have unanswered := (books.unanswered b (List.mem_append_right _ waits)).2
  show (s₀.play moves).outcome? b.ticket = none
  rw [outcome?, List.findSome?_eq_none_iff]
  intro e he
  cases e with
  | answered t o =>
    have : t ≠ b.ticket := by
      rintro rfl
      exact unanswered o he
    simp [this]
  | _ => rfl

/-- Where nothing was handled, everyone is told in the end that the agent has stopped. -/
theorem addOutcome_of_exited {c : IdentityConfiguration} {place : DataPlace}
    (h : new c place = .ok s₀) (moves : List Move) (hnone : s₀.handled moves = [])
    (hl : (s₀.play moves).agent.loop = .exited) {b : Batch} {made : List PartyId}
    (hb : .askedToAdd b.owner increment made (.ok b.added) ∈ (s₀.play moves).journal) :
    (s₀.play moves).addOutcome b.added = some (.error .agentStopped) := by
  obtain ⟨r, -, blank⟩ := blank_of_new h
  have replied := replied_play h moves
  have books := ((steady_accounted s₀.graph).play_new h ⟨blank.books, trivial⟩ moves).2.books
  have ticket : b.ticket ∈ (s₀.play moves).replies.map (·.1) := by
    rw [replied.tickets_of_exited hl]
    exact List.mem_range.mpr (books.ledger.promised _ hb b.ticket rfl)
  obtain ⟨⟨t, o⟩, hmem, rfl⟩ := List.mem_map.mp ticket
  obtain ⟨x, b', hx, -⟩ | rfl := replied.source hmem
  · simp [hnone] at hx
  · exact addOutcome_eq books.ledger (mem_replies.mp hmem)

/-! ### Additions after a refused start -/

/-- Whether one who asked for an addition, with the answer and the service afterwards, is told the
outcome at once and has left no message. -/
structure HeardAtOnce (s : Service) (asked : Except IdentityError Added × Service) : Prop where
  told : (asked.2.addReturn? asked.1).isSome = true
  mailbox : asked.2.agent.mailbox = s.agent.mailbox

/-- Whether the job of one who asked for an addition was accepted, and nothing is ever done for
it. -/
structure WaitsInVain (s : Service) (asked : Except IdentityError Added × Service) : Prop where
  posted : ∃ b : Batch, asked.1 = .ok b.added ∧
    asked.2.agent.mailbox = s.agent.mailbox ++ [.job (.add b)]
  /-- The agent handles nothing any more. -/
  unhandled : ∀ more, asked.2.handled more = []
  /-- The job stays in the mailbox until the service is let go. -/
  stays : ∀ more, (asked.2.play more).dropped = false →
    asked.2.agent.mailbox <+: (asked.2.play more).agent.mailbox
  /-- Until then nothing is told. -/
  told : ∀ more, (asked.2.play more).addReturn? asked.1
    = if (asked.2.play more).dropped then some (.error .agentStopped) else none

/-- What becomes of an addition that is asked for after a refused start. -/
structure AfterRefusal (s : Service) (owner : PartyRef) (shape : AddShape)
    (increment : PartySection) : Prop where
  /-- One is answered at once exactly if it is refused or there is nothing to add. -/
  heard : s.HeardAtOnce (s.add owner shape increment) ↔
    ∀ parties, s.checkAddition owner shape increment = .ok parties → parties.isEmpty = true
  /-- Otherwise one waits in vain. -/
  unheard : ¬ s.HeardAtOnce (s.add owner shape increment) →
    s.WaitsInVain (s.add owner shape increment)

theorem heardAtOnce_of_idle (h : ∀ parties, s.checkAddition owner shape increment = .ok parties →
      parties.isEmpty = true) : s.HeardAtOnce (s.add owner shape increment) := by
  obtain ⟨hagent, hanswer⟩ := add_of_idle h
  refine ⟨?_, by rw [hagent]⟩
  rcases hanswer with ⟨e, he⟩ | hempty
  · rw [he]
    rfl
  · rw [hempty]
    rfl

/-- An addition that passes all checks finds the mailbox open. -/
theorem StartRefused.isOpen (h : s.StartRefused)
    (hcheck : s.checkAddition owner shape increment = .ok parties)
    (hne : parties.isEmpty = false) : s.agent.loop = .absent ∧ s.agent.isOpen = true := by
  obtain ⟨hd, -⟩ := (checkAddition_eq_ok hcheck).resolve_left (by simp [hne])
  have hl : s.agent.loop = .absent := h.loop.trans (by simp [hd])
  exact ⟨hl, (Agent.isOpen_iff _).mpr (by simp [hl])⟩

/-- Whoever asks for an addition that passes all checks waits in vain. -/
theorem waitsInVain_of_admitted {c : IdentityConfiguration} {place : DataPlace}
    (h : new c place = .ok s₀) {moves : List Move} (hv : (s₀.play moves).agent.Vetoed)
    (hcheck : (s₀.play moves).checkAddition owner shape increment = .ok parties)
    (hne : parties.isEmpty = false) :
    (s₀.play moves).WaitsInVain ((s₀.play moves).add owner shape increment) := by
  have refused := startRefused_of_vetoed h moves hv
  obtain ⟨hl, hopen⟩ := refused.isOpen hcheck hne
  obtain ⟨b, hanswer, hagent, made, hasked⟩ := add_of_admitted hcheck hne hopen
  have hmailbox : ((s₀.play moves).add owner shape increment).2.agent.mailbox
      = (s₀.play moves).agent.mailbox ++ [.job (.add b)] := by
    rw [hagent, Agent.send_of_open hopen]
  -- The request is one more move of the history.
  let m : Move := .request (.add owner shape increment)
  obtain ⟨-, after, -⟩ := refused.moved (moved_move refused.orderly m)
  have history (more : List Move) : s₀.play (moves ++ m :: more)
      = ((s₀.play moves).add owner shape increment).2.play more := play_append s₀ moves (m :: more)
  have unhandled (more : List Move) : s₀.handled (moves ++ m :: more) = [] := by
    obtain ⟨r, -, blank⟩ := blank_of_new h
    rw [handled_append, (inOrder_play blank moves).unbegun (.inl hl)]
    exact (refused.play (m :: more)).1
  constructor
  case posted => exact ⟨b, hanswer, hmailbox⟩
  case unhandled => exact fun more => (after.play more).1
  case stays => exact fun more hd => ((after.play more).2.2 hd).2
  case told =>
    intro more
    obtain ⟨-, later, stays⟩ := after.play more
    rw [hanswer, addReturn?, ← history]
    cases hd : (s₀.play (moves ++ m :: more)).dropped with
    | false =>
      refine addOutcome_of_waiting h _ ?_
      rw [history] at hd ⊢
      exact (stays hd).2.subset (hmailbox ▸ List.mem_append_right _ (List.mem_singleton_self _))
    | true =>
      have gone : (s₀.play (moves ++ m :: more)).agent.loop = .exited := by
        rw [history] at hd ⊢
        exact later.loop.trans (if_pos hd)
      have hasked' : .askedToAdd b.owner increment made (.ok b.added)
          ∈ (s₀.play (moves ++ m :: more)).journal := by
        rw [history]
        exact (later_play after.orderly more).grows.subset hasked
      exact addOutcome_of_exited h _ (unhandled more) gone hasked'

/-- **Nobody is heard after a refused start.** Whoever asks for an addition is answered at once if
it is refused or there is nothing to add. Otherwise the job is accepted and is never done, and one
waits until the last owner lets go of the service. -/
theorem afterRefusal {c : IdentityConfiguration} {place : DataPlace} (h : new c place = .ok s₀)
    (moves : List Move) (hv : (s₀.play moves).agent.Vetoed) (owner : PartyRef) (shape : AddShape)
    (increment : PartySection) : (s₀.play moves).AfterRefusal owner shape increment := by
  have waits {parties : Parties}
      (hcheck : (s₀.play moves).checkAddition owner shape increment = .ok parties)
      (hne : parties.isEmpty = false) := waitsInVain_of_admitted h hv hcheck hne
  constructor
  case heard =>
    refine ⟨fun heard parties hcheck => ?_, heardAtOnce_of_idle⟩
    by_contra hne
    obtain ⟨b, -, hmailbox⟩ := (waits hcheck (by simpa using hne)).posted
    simp [heard.mailbox] at hmailbox
  case unheard =>
    intro unheard
    have hidle := mt heardAtOnce_of_idle unheard
    push Not at hidle
    obtain ⟨parties, hcheck, hne⟩ := hidle
    exact waits hcheck (by simpa using hne)

/-- A driver is expected that nobody registers, and the service is started. -/
def unready : List Move := [.request (.expect "Echo"), .request .start]

/-- A section with a remote party. -/
def guest : PartySection := { PartySection.blank with partyName := some "R" }

theorem vetoed_unready : ∃ s₀, new .default ⟨"/home", none⟩ = .ok s₀ ∧
    (s₀.play unready).agent.Vetoed := by
  obtain ⟨s₀, h⟩ := exists_new_default
  have hrun : (new .default ⟨"/home", none⟩).toOption.map (fun s =>
      ((s.play unready).agent.startAttempted, (s.play unready).agent.status))
        = some (true, .waitingForStart) := by
    decide +kernel
  rw [h] at hrun
  obtain ⟨attempted, waits⟩ := Prod.mk.inj (Option.some.inj hrun)
  exact ⟨s₀, h, attempted, waits⟩

theorem afterRefusal_of_unready : ∃ s₀, new .default ⟨"/home", none⟩ = .ok s₀ ∧
    (s₀.play unready).agent.Vetoed ∧ (s₀.play unready).AfterRefusal .root .oneRemote guest := by
  obtain ⟨s₀, h, hv⟩ := vetoed_unready
  exact ⟨s₀, h, hv, afterRefusal h unready hv .root .oneRemote guest⟩

/-- Whoever adds a remote party then has left a message. -/
theorem not_heardAtOnce_unready : ∃ s₀, new .default ⟨"/home", none⟩ = .ok s₀ ∧
    (s₀.play unready).agent.Vetoed ∧
      ¬ (s₀.play unready).HeardAtOnce ((s₀.play unready).add .root .oneRemote guest) := by
  obtain ⟨s₀, h, hv⟩ := vetoed_unready
  refine ⟨s₀, h, hv, fun heard => ?_⟩
  have hrun : (new .default ⟨"/home", none⟩).toOption.map (fun s =>
      ((s.play unready).agent.mailbox.length,
        ((s.play unready).add .root .oneRemote guest).2.agent.mailbox.length)) = some (0, 1) := by
    decide +kernel
  rw [h] at hrun
  obtain ⟨before, after⟩ := Prod.mk.inj (Option.some.inj hrun)
  rw [heard.mailbox, before] at after
  cases after

/-- Another attempt to start does not help, and letting go of the service does. -/
example : (new .default ⟨"/home", none⟩).toOption.map (fun s =>
    let (answer, t) := (s.play unready).add .root .oneRemote guest
    [[.request .start, .deliver], [.drop]].map fun more =>
      ((t.play more).addReturn? answer).map Except.isOk) = some [none, some false] := by
  decide +kernel

end Service

end PartyGraph
