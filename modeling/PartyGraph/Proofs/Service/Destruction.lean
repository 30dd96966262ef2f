import PartyGraph.Proofs.Service.Departures
import PartyGraph.Proofs.Service.Orders

/-!
# What becomes of destructions

Whoever destroys a party first requests it. When the request is refused, that is what there is to
tell. Otherwise one waits until the party is destroyed or nothing is handled any more, whichever is
noticed first (`Service.destroyReturn?`).

A request for the destruction of a dynamic party is refused only when nothing is handled any more:
the service is gone or the loop of its agent has left. The mark that the request leaves nevertheless
is never followed by a destruction (`Service.Refusals`). Those who wait are told that the agent has
stopped in the same two cases, and also as long as the agent has not been started. The latter does
not concern anyone who knows of the party, since a party that was added is handed out after the
agent has begun to handle the addition, and it does not do so before it is started
(`Service.Started`).

## Main definitions

* `Service.Started`: an agent that has handled something was started.
* `Service.Refusal`, `Service.Refusals`: when requests are refused.
* `Service.HandedOut`, `Service.destroyReturn?`: who may ask, and what they are told.
* `Service.DestroyedOnce`: what is said of the destruction of a party.

## Main results

* `Service.Started.moved`: the agent handles nothing before it is started.
* `Service.Asked.refusal`, `Service.Refusals.moved`: when a request is refused.
-/

namespace PartyGraph

namespace Entry

/-- Whether the agent began to handle a message. -/
def isHandling : Entry → Bool
  | .handling _ => true
  | _ => false

/-- Whether a request for a destruction was refused. -/
def isRefusal : Entry → Bool
  | .askedToDestroy _ (.error _) => true
  | _ => false

variable {e : Entry}

theorem OfRequest.isHandling (h : e.OfRequest) : e.isHandling = false := by
  cases e <;> first | rfl | cases h

theorem OfHandling.isHandling (h : e.OfHandling) : e.isHandling = false := by
  cases e <;> first | rfl | cases h

theorem OfHandling.isRefusal (h : e.OfHandling) : e.isRefusal = false := by
  cases e <;> first | rfl | cases h

end Entry

namespace Service

variable {s s' : Service} {g₀ : Graph} {h? : Option (Service × Agent.Call IdentityJob)}

/-! ### Nothing is handled before the start -/

/-- Whether the agent was started if its loop runs or if it has handled something. -/
structure Started (s : Service) : Prop where
  roused : s.agent.Roused
  status : 0 < s.journal.countP Entry.isHandling → s.agent.status ≠ .waitingForStart

namespace Started

theorem of_status (h : s.agent.status ≠ .waitingForStart) : s.Started := ⟨.inr (.inr h), fun _ => h⟩

/-- Something happens to the agent, and no message is handled. -/
theorem play (h : s.Started) (moves : List (Agent.Move IdentityJob))
    (ha : s'.agent = (s.agent.play moves).2)
    (hj : s'.journal.countP Entry.isHandling = s.journal.countP Entry.isHandling) :
    s'.Started where
  roused := ha ▸ h.roused.play moves
  status hpos := ha ▸ Agent.started_play (h.status (hj ▸ hpos)) moves

theorem works {calls : List DriverCall} (h : s.Started) (hw : s.Works calls s') : s'.Started := by
  obtain ⟨moves, ha, -⟩ := hw.agent
  exact h.play moves ha (countP_works hw (fun _ he => he.isHandling) fun _ => rfl)

theorem moved (h : s.Started) (ho : s.Orderly) (hm : s.Moved h? s') : s'.Started := by
  have dropped (t : Service) : (t.answerDropped s.jobs).journal.countP Entry.isHandling
      = t.journal.countP Entry.isHandling :=
    countP_noted (noted_answerDropped ..) fun _ he => he.isHandling
  cases hm with
  | works hw => exact h.works hw
  | installed hw =>
    have h₁ := h.works hw
    exact ⟨h₁.roused, h₁.status⟩
  | released => exact h.play [.release, .sendStop] rfl rfl
  | abandoned =>
    exact h.play [.release, .sendStop] (noted_answerDropped ..).agent (dropped _)
  | @exited a he =>
    have hagent := (noted_answerDropped { s with agent := a } s.jobs).agent
    constructor
    case roused =>
      rw [hagent]
      exact .inr (.inl he.loop)
    case status =>
      rw [dropped, hagent]
      exact fun hpos => he.status ▸ h.status hpos
  | @handled c a s₁ ht hh =>
    have before : a.status ≠ .waitingForStart := by
      rw [ht.status]
      rcases ht.before with ⟨hl, -⟩ | ⟨hl, -⟩ <;>
        exact h.roused.started (by simp [hl]) (by simp [hl])
    obtain ⟨moves, hagent, -⟩ := (hh.kept (ho.taken ht) (by simp [ht.loop])).agent
    have after : s₁.agent.status ≠ .waitingForStart := hagent ▸ Agent.started_play before moves
    exact .of_status (Agent.started_play after [.finish])

end Started

theorem started_play {c : IdentityConfiguration} {place : DataPlace} (h : new c place = .ok s)
    (moves : List Move) : (s.play moves).Started := by
  obtain ⟨r, -, blank⟩ := blank_of_new h
  have start : s.Started := ⟨.inl blank.loop, by simp [blank.journal]⟩
  exact moved_induction (coherent_of_new h).orderly start
    (fun _ _ _ ho ht hm => ht.moved ho hm) moves

/-! ### Refused requests -/

/-- Whether a request for the destruction of a dynamic party was refused with `e`. -/
def Refusal (g₀ : Graph) (journal : List Entry) (id : PartyId) (e : IdentityError) : Prop :=
  ∃ earlier p, .askedToDestroy id (.error e) :: earlier <:+ journal ∧
    (g₀.after earlier).party? id = some p ∧ p.dynamic = true

theorem Refusal.of_cons {x : Entry} {journal : List Entry} {id : PartyId} {e : IdentityError}
    (h : Refusal g₀ (x :: journal) id e) (hx : x.isRefusal = false) : Refusal g₀ journal id e := by
  obtain ⟨earlier, p, hsuffix, hp⟩ := h
  rcases List.suffix_cons_iff.mp hsuffix with heq | hsuffix
  · cases heq
    cases hx
  · exact ⟨earlier, p, hsuffix, hp⟩

theorem Refusal.of_append {new journal : List Entry} {id : PartyId} {e : IdentityError}
    (h : Refusal g₀ (new ++ journal) id e) (hnew : ∀ x ∈ new, x.isRefusal = false) :
    Refusal g₀ journal id e := by
  induction new with
  | nil => exact h
  | cons x new ih =>
    rw [List.forall_mem_cons] at hnew
    exact ih (h.of_cons hnew.1) hnew.2

/-- When a request is refused, nothing is handled any more and the party is not destroyed. -/
theorem Asked.refusal {id : PartyId} {e : IdentityError} (ha : s.Asked s')
    (hg : s.graph = g₀.after s.journal) (h : Refusal g₀ s'.journal id e) :
    Refusal g₀ s.journal id e ∨ e = .agentStopped ∧ s.Over ∧ s.graph.isGone id = false := by
  cases ha with
  | quiet ha => exact .inl (ha.journal ▸ h)
  | unready ha i => exact .inl (ha.journal ▸ h.of_cons rfl)
  | attached | refused | empty => exact .inl (h.of_cons rfl)
  | stranded | enlisted => exact .inl ((h.of_cons rfl).of_cons rfl)
  | @unmoved i answer _ static =>
    obtain ⟨earlier, p, hsuffix, hp, hdynamic⟩ := h
    rcases List.suffix_cons_iff.mp hsuffix with heq | hsuffix
    · cases heq
      rw [← hg] at hp
      exact absurd ((static e p rfl hp).symm.trans hdynamic) (by simp)
    · exact .inl ⟨earlier, p, hsuffix, hp, hdynamic⟩
  | @doomed i p answer _ hp _ halive hpost =>
    cases hpost with
    | accepted => exact .inl ((h.of_cons rfl).of_cons rfl)
    | refused hover =>
      obtain ⟨earlier, q, hsuffix, hq⟩ := h
      rcases List.suffix_cons_iff.mp hsuffix with heq | hsuffix
      · cases heq
        refine .inr ⟨rfl, hover, ?_⟩
        have alive : p.destroyState = .alive := by simpa [OwnedParty.isDestroyed] using halive
        simp [Graph.isGone, hp, alive]
      · exact .inl (Refusal.of_cons ⟨earlier, q, hsuffix, hq⟩ rfl)

/-- Whether requests for the destruction of dynamic parties were refused only when nothing was
handled any more, and the parties have not been destroyed since. -/
structure Refusals (g₀ : Graph) (s : Service) : Prop where
  graph : s.graph = g₀.after s.journal
  refused : ∀ id e, Refusal g₀ s.journal id e →
    e = .agentStopped ∧ s.Over ∧ s.graph.isGone id = false

theorem Over.asked (h : s.Over) (ha : s.Asked s') : s'.Over := by
  rcases h with hd | hl
  · exact .inl (ha.dropped.trans hd)
  · rcases ha.loop_cases with h | ⟨h, -⟩
    · exact .inr (h.trans hl)
    · simp [hl] at h

/-- Once nothing is handled any more, this stays so and nobody is destroyed. -/
theorem Over.moved (h : s.Over) (hm : s.Moved h? s') :
    s'.Over ∧ ∀ id, s'.graph.isGone id = s.graph.isGone id := by
  have works {calls : List DriverCall} {t : Service} (hw : s.Works calls t) :
      t.Over ∧ ∀ id, t.graph.isGone id = s.graph.isGone id :=
    ⟨hw.induction (fun _ _ ht ha => ht.asked ha) (fun _ _ ht => ht) h, hw.isGone⟩
  have same (id : PartyId) (t : Service) (hg : t.graph = s.graph) :
      (t.answerDropped s.jobs).graph.isGone id = s.graph.isGone id := by
    rw [graph_answerDropped, hg]
  cases hm with
  | works hw => exact works hw
  | installed hw =>
    have h₁ := works hw
    exact ⟨h₁.1, h₁.2⟩
  | released => exact ⟨.inl rfl, fun _ => rfl⟩
  | abandoned => exact ⟨.inl (noted_answerDropped ..).dropped, fun id => same id _ rfl⟩
  | @exited a he =>
    refine ⟨.inr ?_, fun id => same id _ rfl⟩
    rw [(noted_answerDropped { s with agent := a } s.jobs).agent]
    exact he.loop
  | @handled c a s₁ ht hh =>
    have hd : s.dropped = true := by
      refine h.resolve_right fun hl => ?_
      rcases ht.before with ⟨hl', -⟩ | ⟨hl', -⟩ <;> simp [hl] at hl'
    cases hh with
    | idle => exact ⟨.inl hd, fun _ => rfl⟩
    | orphaned => exact ⟨.inl hd, fun _ => rfl⟩
    | started hd' | beat hd' | stopped hd' | refused hd' | failed hd' | added hd' | gone hd'
    | missing hd' | destroyed hd' => exact absurd (hd.symm.trans hd') (by simp)

namespace Refusals

/-- Something happens to the agent. -/
theorem congr (h : s.Refusals g₀) (hg : s'.graph = s.graph) (hj : s'.journal = s.journal)
    (hover : s.Over → s'.Over) : s'.Refusals g₀ where
  graph := by rw [hg, hj, h.graph]
  refused id e he := by
    rw [hj] at he
    obtain ⟨hstopped, ho, hgone⟩ := h.refused id e he
    exact ⟨hstopped, hover ho, hg ▸ hgone⟩

theorem record (h : s.Refusals g₀) {e : Entry} (he : e.isRefusal = false)
    (hact : e.act s.graph = s.graph) : (s.record e).Refusals g₀ where
  graph := by
    show s.graph = e.act (g₀.after s.journal)
    rw [← h.graph, hact]
  refused id e hr := h.refused id e (hr.of_cons he)

theorem asked (h : s.Refusals g₀) (ha : s.Asked s') : s'.Refusals g₀ where
  graph := by
    obtain ⟨new, hj, hg, -⟩ := ha.journal
    rw [hj, hg, Graph.after_append, ← h.graph]
  refused id e he := by
    have known : e = .agentStopped ∧ s.Over ∧ s.graph.isGone id = false :=
      (ha.refusal h.graph he).elim (h.refused id e) fun h => h
    exact ⟨known.1, known.2.1.asked ha, (ha.isGone id).trans known.2.2⟩

theorem works {calls : List DriverCall} (h : s.Refusals g₀) (hw : s.Works calls s') :
    s'.Refusals g₀ :=
  hw.induction (fun _ _ ht ha => ht.asked ha) (fun _ _ ht => ht.record rfl rfl) h

/-- Parties come and go only while there is someone who handles it. -/
theorem noted (h : s.Refusals g₀) (hn : s.Noted s') (hstill : s.Over → s'.graph = s.graph) :
    s'.Refusals g₀ := by
  obtain ⟨new, hj, hg, hall⟩ := hn.journal
  constructor
  case graph => rw [hj, hg, Graph.after_append, ← h.graph]
  case refused =>
    intro id e he
    rw [hj] at he
    obtain ⟨hstopped, hover, hgone⟩ :=
      h.refused id e (he.of_append fun x hx => (hall x hx).isRefusal)
    rw [hstill hover, Over, hn.dropped, hn.agent]
    exact ⟨hstopped, hover, hgone⟩

theorem answerDropped (h : s.Refusals g₀) (jobs : List IdentityJob) :
    (s.answerDropped jobs).Refusals g₀ :=
  h.noted (noted_answerDropped s jobs) fun _ => graph_answerDropped s jobs

/-- Handling a message. -/
theorem handled {c : Agent.Call IdentityJob} (h : s.Refusals g₀) (hl : s.agent.loop = .calling c)
    (hh : s.Handled c s') : s'.Refusals g₀ := by
  have pass {hook : Hook} {ids : List PartyId} {calls : List DriverCall} {s₁ : Service}
      (hw : (s.record (.passBegun hook ids)).Works calls s₁) : s₁.Refusals g₀ :=
    (h.record rfl rfl).works hw
  have live {hook : Hook} {ids : List PartyId} {calls : List DriverCall} {s₁ : Service}
      (hd : s.dropped = false) (hw : (s.record (.passBegun hook ids)).Works calls s₁) :
      ¬ s₁.Over := by
    have hloop : s₁.agent.loop = .calling c := (hw.loop (by simp [hl])).trans hl
    have hdropped : s₁.dropped = false := hw.dropped.trans hd
    simp [Over, hloop, hdropped]
  cases hh with
  | idle | gone => exact h
  | @started s₁ _ works i =>
    have decided : ({ s₁ with initialization := i } : Service).Refusals g₀ :=
      (pass works).congr rfl rfl id
    exact decided.record rfl rfl
  | beat | orphaned | refused => exact h.record rfl rfl
  | stopped _ works | missing _ _ works => exact pass works
  | failed _ _ _ works => exact (pass works).record rfl rfl
  | @added b s₁ s₂ hd _ _ works after =>
    have published := (pass works).noted (noted_publish s₁ b) fun hover =>
      absurd hover (live hd works)
    exact (published.works after).record rfl rfl
  | destroyed hd _ works =>
    exact (pass works).noted (noted_removeParty ..) fun hover => absurd hover (live hd works)

theorem moved (h : s.Refusals g₀) (hm : s.Moved h? s') : s'.Refusals g₀ := by
  cases hm with
  | works hw => exact h.works hw
  | installed hw => exact (h.works hw).congr rfl rfl id
  | released => exact h.congr rfl rfl fun _ => .inl rfl
  | abandoned =>
    have released : ({ s with dropped := true, agent := s.agent.release } : Service).Refusals g₀ :=
      h.congr rfl rfl fun _ => .inl rfl
    exact released.answerDropped s.jobs
  | @exited a he =>
    have left : ({ s with agent := a } : Service).Refusals g₀ :=
      h.congr rfl rfl fun _ => .inr he.loop
    exact left.answerDropped s.jobs
  | @handled c a s₁ ht hh =>
    have taken : ({ s with agent := a } : Service).Refusals g₀ := by
      refine h.congr rfl rfl fun hover => ?_
      rcases hover with hd | hl
      · exact .inl hd
      · rcases ht.before with ⟨hl', -⟩ | ⟨hl', -⟩ <;> simp [hl] at hl'
    refine ((taken.record rfl rfl).handled ht.loop hh).congr rfl rfl fun hover => ?_
    rcases hover with hd | hl
    · exact .inl hd
    · exact .inr (by simp [Agent.finish, hl])

end Refusals

theorem refusals_play {c : IdentityConfiguration} {place : DataPlace} (h : new c place = .ok s)
    (moves : List Move) : (s.play moves).Refusals s.graph := by
  obtain ⟨r, -, blank⟩ := blank_of_new h
  have start : s.Refusals s.graph := by
    constructor
    case graph => simp [blank.journal, Graph.after]
    case refused => simp [Refusal, blank.journal]
  exact moved_induction (coherent_of_new h).orderly start (fun _ _ _ _ ht hm => ht.moved hm) moves

/-! ### What is told to those who wait -/

/-- Whether others may know of a party by the time of a journal: it came with an addition that the
agent has begun to handle. The drivers get to know it then, and who asked for the addition when it
is done. -/
def HandedOut (journal : List Entry) (id : PartyId) : Prop :=
  ∃ owner increment made b, .askedToAdd owner increment made (.ok (Batch.added b)) ∈ journal ∧
    id ∈ made ∧ .handling (.job (.add b)) ∈ journal

/-- What one is told who destroys a party, once it is known, where `answer` is that to the
request. -/
def destroyReturn? (s : Service) (id : PartyId) :
    (answer : Except IdentityError Bool) → Option (Except IdentityError Unit)
  | .error e => some (.error e)
  | .ok _ => s.destroyOutcome id

/-- What one is told who knows of the party. -/
theorem Started.destroyReturn? {id : PartyId} {answer : Except IdentityError Bool}
    {outcome : Except IdentityError Unit} (h : s.Started) (hh : HandedOut s.journal id)
    (hr : s.destroyReturn? id answer = some outcome)
    (hrefused : ∀ e, answer = .error e →
      e = .agentStopped ∧ s.Over ∧ s.graph.isGone id = false) :
    outcome = .ok () ∧ s.graph.isGone id = true ∨
      outcome = .error .agentStopped ∧ s.graph.isGone id = false ∧ s.Over := by
  cases answer with
  | error e =>
    obtain ⟨rfl, hover, hgone⟩ := hrefused e rfl
    cases hr
    exact .inr ⟨rfl, hgone, hover⟩
  | ok b =>
    have started : s.agent.status ≠ .waitingForStart := by
      obtain ⟨owner, increment, made, b, -, -, hmem⟩ := hh
      exact h.status (List.countP_pos_iff.mpr ⟨_, hmem, rfl⟩)
    rw [Service.destroyReturn?, destroyOutcome] at hr
    cases hgone : s.graph.isGone id with
    | true =>
      rw [hgone, if_pos rfl] at hr
      exact .inl ⟨(Option.some.inj hr).symm, rfl⟩
    | false =>
      rw [hgone, if_neg (by simp)] at hr
      split at hr
      · next hover =>
        refine .inr ⟨(Option.some.inj hr).symm, rfl, ?_⟩
        simpa [hasNoLoop, started, Agent.isFinished_iff, Over] using hover
      · cases hr

/-! ### The destruction of a party -/

/-- What is said of the destruction of a party in a history. -/
structure DestroyedOnce (s₀ : Service) (moves : List Move) (id : PartyId) : Prop where
  /-- The journal tells the graph at every point. -/
  graph : (s₀.play moves).graph = s₀.graph.after (s₀.play moves).journal
  /-- From one point to a later one the party does not go back. -/
  forward : ∀ j j', j <:+ j' → j' <:+ (s₀.play moves).journal →
    ∀ p, (s₀.graph.after j).party? id = some p →
      ∃ p', (s₀.graph.after j').party? id = some p' ∧ p.destroyState ≤ p'.destroyState
  /-- One request is told to be the first. -/
  granted : (s₀.play moves).journal.countP (Entry.grants id) ≤ 1
  /-- The drivers are told to tear it down once. -/
  tornDown : (s₀.play moves).journal.countP (Entry.targets id) ≤ 1
  /-- It disappears once. -/
  told : (s₀.play moves).events.count (.disappeared id) ≤ 1
  /-- When it is destroyed, it is in no list. -/
  unlisted : ∀ j, j <:+ (s₀.play moves).journal → (s₀.graph.after j).isGone id = true →
    ¬ (s₀.graph.after j).Listed id
  /-- Who destroys it is told so if it is destroyed, and otherwise that the agent has stopped if
  nothing is handled any more. -/
  returned : ∀ answer earlier p outcome,
    .askedToDestroy id answer :: earlier <:+ (s₀.play moves).journal →
    (s₀.graph.after earlier).party? id = some p → p.dynamic = true → HandedOut earlier id →
    (s₀.play moves).destroyReturn? id answer = some outcome →
      outcome = .ok () ∧ (s₀.play moves).graph.isGone id = true ∨
      outcome = .error .agentStopped ∧ (s₀.play moves).graph.isGone id = false ∧
        (s₀.play moves).Over

theorem HandedOut.mono {journal journal' : List Entry} {id : PartyId} (h : HandedOut journal id)
    (hsub : ∀ e ∈ journal, e ∈ journal') : HandedOut journal' id := by
  obtain ⟨owner, increment, made, b, hasked, hid, hhandling⟩ := h
  exact ⟨owner, increment, made, b, hsub _ hasked, hid, hsub _ hhandling⟩

/-- A tenant domain is added with a remote party, and while the destruction of the remote party is
in line that of the domain is requested. Afterwards someone asks for the former again. -/
def rivals : List Move :=
  [.request .start, .deliver,
    .request (.add .root .any { PartySection.blank with
      domainName := some "T", partyName := some "T",
      parties := [{ PartySection.blank with partyName := some "R" }] }),
    .deliver, .request (.destroy 1), .request (.destroy 0), .deliver, .deliver,
    .request (.destroy 1)]

/-- The remote party of the domain is torn down and disappears, and who asked again is told that it
is destroyed. -/
example : (new .default ⟨"/home", none⟩).toOption.map (fun s =>
    let t := s.play rivals
    (t.journal.countP (Entry.grants 1), t.journal.countP (Entry.targets 1),
      t.events.count (.disappeared 1), (t.destroyReturn? 1 (.ok false)).map Except.isOk))
      = some (1, 1, 1, some true) := by
  decide +kernel

end Service

end PartyGraph
