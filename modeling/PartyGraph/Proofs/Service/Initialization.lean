import PartyGraph.Proofs.Service.Coverage
import PartyGraph.Proofs.Service.Shutdown

/-!
# The initialization is decided once

Whether the drivers are set up is decided in one of two places. Whoever attempts the first start
while a driver is missing decides it, and the agent is never started then. Otherwise the agent
decides it when it handles the start, by what came of the pass over the drivers. Neither can follow
the other, since there is one attempt to start, and the agent handles the start once.

There is a third way, in which nothing is ever decided: the service is let go before the agent has
handled the start. Then the agent does nothing for any message.

So there are four cases for a service with the messages that it has handled (`Service.Outset`).
Whatever disturbs parties is done for a message that follows the start, and by then the
initialization is decided.

## Main definitions

* `Service.decisions`: all that was decided about the initialization, in order.
* `Entry.disturbs`: parties come or go, or drivers are called for such as are to.
* `Service.Abides`, `Service.Decides`: nothing is decided, or one thing is.
* `Service.Barred`, `Service.Outset`: how the initialization stands.
* `Service.startRun`, `Service.SetUpWell`: the pass at the start, and whether all went well in it.
* `Service.DecidedOnce`: what is said of the initialization.

## Main results

* `Service.Asked.abides_or_barred`: a request decides the initialization if it is refused the start.
* `Service.Initializing.moved`: how the initialization stands after a move.
-/

namespace PartyGraph

namespace Entry

/-- What an entry tells to have been decided about the initialization. -/
def decision? : Entry → Option Initialization
  | .initialized i => some i
  | _ => none

/-- Whether parties come or go, or a pass begins for parties that are to. -/
def disturbs : Entry → Bool
  | .passBegun .setupDynamic _ | .passBegun .teardownDynamic _ => true
  | e => e.stirs

/-- Whether an entry tells of nothing that disturbs, or something was decided before. -/
def Heralded (e : Entry) (earlier : List Entry) : Prop :=
  e.disturbs = true → ∃ i, .initialized i ∈ earlier

variable {e : Entry}

theorem OfRequest.disturbs (h : e.OfRequest) : e.disturbs = false := by
  cases e with
  | changed c => cases c <;> first | rfl | cases h
  | _ => first | rfl | cases h

theorem OfHandling.decision? (h : e.OfHandling) : e.decision? = none := by
  cases e <;> first | rfl | cases h

end Entry

/-- What was decided, if anything was. -/
def Initialization.decided : Initialization → List Initialization
  | .pending => []
  | i => [i]

theorem Initialization.decided_of_ne {i : Initialization} (h : i ≠ .pending) : i.decided = [i] := by
  cases i <;> first | rfl | exact absurd rfl h

theorem Initialization.ofSetUp_ne_pending (result : Except ActionError Unit) :
    ofSetUp result ≠ .pending := by
  cases result <;> simp [ofSetUp]

namespace Service

variable {s s' s'' : Service} {c : Agent.Call IdentityJob} {calls : List DriverCall}
  {h : List (Service × Agent.Call IdentityJob)} {h? : Option (Service × Agent.Call IdentityJob)}

/-- All that was decided about the initialization, in order. -/
def decisions (s : Service) : List Initialization := s.journal.reverse.filterMap Entry.decision?

/-! ### What decides -/

/-- Nothing is decided between `s` and `s'`. -/
structure Abides (s s' : Service) : Prop where
  initialization : s'.initialization = s.initialization
  adds : s.Adds (fun e => e.decision? = none) s'

namespace Abides

theorem refl (s : Service) : s.Abides s := ⟨rfl, .refl s⟩

theorem trans (ha : s.Abides s') (ha' : s'.Abides s'') : s.Abides s'' :=
  ⟨ha'.initialization.trans ha.initialization, ha.adds.trans ha'.adds⟩

theorem record (s : Service) {e : Entry} (he : e.decision? = none) : s.Abides (s.record e) :=
  ⟨rfl, (Adds.refl s).record he⟩

theorem decisions (ha : s.Abides s') : s'.decisions = s.decisions := by
  obtain ⟨new, hj, hnew⟩ := ha.adds
  rw [Service.decisions, hj]
  exact filterMap_journal_append hnew s.journal

end Abides

theorem Noted.abides (hn : s.Noted s') : s.Abides s' :=
  ⟨hn.initialization, hn.adds fun _ he => he.decision?⟩

/-- What the initialization is at `s'` is decided between `s` and `s'`, and nothing else is. -/
def Decides (s s' : Service) : Prop :=
  ∃ new, s'.journal = .initialized s'.initialization :: (new ++ s.journal) ∧
    ∀ e ∈ new, e.decision? = none

theorem Decides.decisions (hd : s.Decides s') :
    s'.decisions = s.decisions ++ [s'.initialization] := by
  obtain ⟨new, hj, hnew⟩ := hd
  rw [Service.decisions, hj, filterMap_journal_cons, filterMap_journal_append hnew]
  rfl

/-- The start was refused because drivers were missing, and they still are. -/
structure Barred (s : Service) : Prop where
  agent : s.agent.Loopless
  frozen : s.registry.frozen = true
  incomplete : s.registry.isComplete = false
  initialization : s.initialization = .failed (.failed "expected feature drivers are missing")

/-! ### Requests -/

theorem Asked.attempted (ha : s.Asked s') (h : s.agent.startAttempted = true) :
    s'.agent.startAttempted = true := by
  obtain ⟨moves, hagent, -⟩ := ha.agent
  exact hagent ▸ Agent.startAttempted_play h moves

/-- A request decides the initialization only if it is the first attempt to start and refused. -/
theorem Asked.abides_or_barred (ha : s.Asked s') :
    s.Abides s' ∨
      s.dropped = false ∧ s.agent.startAttempted = false ∧ s.Decides s' ∧ s'.Barred := by
  have one {t : Service} {e : Entry} (he : e.decision? = none)
      (hi : t.initialization = s.initialization) (hj : t.journal = e :: s.journal) : s.Abides t :=
    ⟨hi, [e], hj, by simpa using he⟩
  cases ha with
  | quiet ha same => exact .inl ⟨same, [], ha.journal, by simp⟩
  | @unready s₁ ha i refused =>
    refine .inr ⟨refused.present, refused.first, ⟨[], ?_, by simp⟩, ?_⟩
    · show .initialized i :: s₁.journal = .initialized s₁.initialization :: s.journal
      rw [refused.initialization, ha.journal]
    · exact ⟨⟨refused.attempted, .inl refused.absent⟩, refused.frozen, refused.incomplete,
        refused.initialization.trans refused.decided⟩
  | attached | unmoved | refused | empty => exact .inl (one rfl rfl rfl)
  | @doomed id p answer _ _ _ _ ha =>
    have two : ∀ e ∈ [Entry.askedToDestroy id answer, .changed (.doom id)],
        e.decision? = none := by simp [Entry.decision?]
    cases ha <;> exact .inl ⟨rfl, _, rfl, two⟩
  | stranded | enlisted => exact .inl ⟨rfl, [_, _], rfl, by simp [Entry.decision?]⟩

/-- Once a start was attempted, no request decides anything. -/
theorem Asked.abides (ha : s.Asked s') (h : s.agent.startAttempted = true) : s.Abides s' :=
  ha.abides_or_barred.resolve_right fun hb => by simp [hb.2.1] at h

theorem Works.abides (hw : s.Works calls s') (h : s.agent.startAttempted = true) :
    s.Abides s' := by
  refine (hw.induction (P := fun t => t.agent.startAttempted = true ∧ s.Abides t)
    (fun t t' ht ha => ⟨ha.attempted ht.1, ht.2.trans (ha.abides ht.1)⟩) (fun t c ht => ?_)
    ⟨h, .refl s⟩).2
  exact ⟨ht.1, ht.2.trans (.record t rfl)⟩

/-- Requests and calls disturb no party. -/
theorem Works.calm (hw : s.Works calls s') : s.Adds (fun e => e.disturbs = false) s' :=
  hw.adds (fun _ he => he.disturbs) fun _ => rfl

/-- When nobody can start the agent, nobody can later on. -/
theorem Barred.asked (hb : s.Barred) (ha : s.Asked s') : s'.Barred where
  agent := by
    obtain ⟨moves, hagent, -⟩ := ha.agent
    exact hagent ▸ hb.agent.play moves
  frozen := ha.frozen hb.frozen
  incomplete := by
    cases ha with
    | quiet ha | unready ha => exact ha.incomplete hb.incomplete
    | doomed _ _ _ ha => cases ha <;> exact hb.incomplete
    | attached | unmoved | refused | empty | stranded | enlisted => exact hb.incomplete
  initialization := (ha.abides hb.agent.1).initialization.trans hb.initialization

/-! ### Messages -/

/-- Of all messages only the start decides anything, and not when the service is gone. -/
theorem Handled.abides (hh : s.Handled c s') (ha : s.agent.startAttempted = true)
    (hc : c ≠ .start ∨ s.dropped = true) : s.Abides s' := by
  have worked {hook : Hook} {targets : List PartyId} {calls : List DriverCall} {s₁ : Service}
      (hw : (s.record (.passBegun hook targets)).Works calls s₁) : s.Abides s₁ :=
    (Abides.record s rfl).trans (hw.abides ha)
  cases hh with
  | idle | gone => exact .refl s
  | started hd =>
    rcases hc with hc | hc
    · exact absurd rfl hc
    · simp [hd] at hc
  | beat | orphaned | refused => exact .record s rfl
  | stopped _ works | missing _ _ works => exact worked works
  | failed _ _ _ works => exact (worked works).trans (.record _ rfl)
  | @added b s₁ s₂ _ _ _ works after =>
    have attempted : s₁.agent.startAttempted = true := by
      obtain ⟨moves, hagent, -⟩ := works.agent
      exact hagent ▸ Agent.startAttempted_play ha moves
    have published := (noted_publish s₁ b).abides
    have settled := after.abides (by rwa [(noted_publish s₁ b).agent])
    exact (((worked works).trans published).trans settled).trans (.record _ rfl)
  | destroyed _ _ works => exact (worked works).trans (noted_removeParty ..).abides

/-- The start decides the initialization by what comes of the pass. -/
theorem Handled.decides (hh : s.Handled .start s') (ha : s.agent.startAttempted = true)
    (hd : s.dropped = false) : s.Decides s' ∧ s'.initialization = .ofSetUp s.setUp.1 := by
  cases hh with
  | idle hd' => simp [hd] at hd'
  | started _ works i decided =>
    obtain ⟨new, hj, hnew⟩ := ((Abides.record s rfl).trans (works.abides ha)).adds
    exact ⟨⟨new, congrArg (_ :: ·) hj, hnew⟩, decided⟩

/-- Neither the start nor a message that finds the service gone disturbs a party. -/
theorem Handled.calm (hh : s.Handled c s') (hc : c = .start ∨ s.dropped = true) :
    s.Adds (fun e => e.disturbs = false) s' := by
  have no {p : Prop} (hd : s.dropped = false) (hc' : c ≠ .start) : p := by
    rcases hc with hc | hc
    · exact absurd hc hc'
    · simp [hd] at hc
  cases hh with
  | idle => exact .refl s
  | started _ works i =>
    have begun : s.Adds (fun e => e.disturbs = false) (s.record (.passBegun .setup [])) :=
      (Adds.refl s).record rfl
    exact (begun.trans works.calm).record rfl
  | orphaned => exact (Adds.refl s).record rfl
  | beat hd | stopped hd | refused hd | failed hd | added hd | gone hd | missing hd
  | destroyed hd => exact no hd (by simp)

/-! ### How the initialization stands -/

/-- How the initialization stands when the messages of `h` were handled. -/
inductive Outset (s : Service) (h : List (Service × Agent.Call IdentityJob)) : Prop
  /-- Nothing has been decided, and nothing handled. -/
  | pending (hh : h = []) (hi : s.initialization = .pending)
  /-- The start was refused. -/
  | barred (hh : h = []) (hb : s.Barred)
  /-- The start found the service gone, so that nothing is ever decided. -/
  | orphaned {x : Service × Agent.Call IdentityJob} {rest : List (Service × Agent.Call IdentityJob)}
    (hh : h = x :: rest) (hd : s.dropped = true) (hi : s.initialization = .pending)
  /-- The agent has handled the start. -/
  | decided {x : Service × Agent.Call IdentityJob} {rest : List (Service × Agent.Call IdentityJob)}
    (hh : h = x :: rest) (hd : x.1.dropped = false)
    (hi : s.initialization = .ofSetUp x.1.setUp.1)

/-- What holds of the initialization throughout a history. -/
structure Initializing (s : Service) (h : List (Service × Agent.Call IdentityJob)) : Prop where
  /-- What was decided is what it is. -/
  agreed : s.decisions = s.initialization.decided
  heralded : Each Entry.Heralded s.journal
  outset : s.Outset h
  /-- All messages but the start find it decided, unless they find the service gone. -/
  met : ∀ x ∈ h, x.2 ≠ .start → x.1.dropped = false → x.1.initialization ≠ .pending

namespace Initializing

/-- Something is decided unless it is pending. -/
theorem exists_decision (hs : s.Initializing h) (hi : s.initialization ≠ .pending) :
    ∃ i, .initialized i ∈ s.journal := by
  have hmem : s.initialization ∈ s.decisions := by
    rw [hs.agreed, Initialization.decided_of_ne hi]
    exact List.mem_singleton_self _
  obtain ⟨e, he, hdecision⟩ := List.mem_filterMap.mp hmem
  cases e <;> cases hdecision
  exact ⟨_, List.mem_reverse.mp he⟩

/-- The journal goes on, and nothing in it disturbs as long as the initialization is pending. -/
theorem goes_on (hs : s.Initializing h)
    (hadds : s.Adds (fun e => s.initialization = .pending → e.disturbs = false) s') :
    Each Entry.Heralded s'.journal := by
  obtain ⟨new, hj, hall⟩ := hadds
  rw [hj]
  refine hs.heralded.append fun e earlier hsuffix hdisturbs => ?_
  by_cases hi : s.initialization = .pending
  · have he := hall e (hsuffix.subset List.mem_cons_self) hi
    exact absurd (he.symm.trans hdisturbs) (by simp)
  · obtain ⟨i, hmem⟩ := hs.exists_decision hi
    exact ⟨i, List.mem_append_right _ hmem⟩

/-- Nothing is decided, and no message is handled. -/
theorem abides (hs : s.Initializing h) (ha : s.Abides s')
    (hcalm : s.Adds (fun e => e.disturbs = false) s')
    (hd : s.dropped = true → s'.dropped = true) (hb : s.Barred → s'.Barred) :
    s'.Initializing h where
  agreed := by rw [ha.decisions, ha.initialization, hs.agreed]
  heralded := hs.goes_on (hcalm.mono fun _ he _ => he)
  outset := by
    cases hs.outset with
    | pending hh hi => exact .pending hh (ha.initialization.trans hi)
    | barred hh hbarred => exact .barred hh (hb hbarred)
    | orphaned hh hdropped hi => exact .orphaned hh (hd hdropped) (ha.initialization.trans hi)
    | decided hh hd' hi => exact .decided hh hd' (ha.initialization.trans hi)
  met := hs.met

/-- A request. The first attempt to start comes before any message. -/
theorem asked (hs : s.Initializing h) (hi : s.InOrder h) (ha : s.Asked s') :
    s'.Initializing h := by
  have calm : s.Adds (fun e => e.disturbs = false) s' := ha.adds fun _ he => he.disturbs
  rcases ha.abides_or_barred with habides | ⟨hd, hattempted, hdecides, hbarred⟩
  · exact hs.abides habides calm (fun hd => ha.dropped.trans hd) fun hb => hb.asked ha
  have hnil : h = [] := by
    rcases hi.orderly.unstarted hattempted with hl | ⟨-, hdropped⟩
    · exact hi.unbegun (.inl hl)
    · simp [hd] at hdropped
  have hpending : s.initialization = .pending := by
    cases hs.outset with
    | pending _ hi => exact hi
    | barred _ hb => exact absurd (hb.agent.1.symm.trans hattempted) (by simp)
    | orphaned hh | decided hh => simp [hnil] at hh
  constructor
  case agreed =>
    rw [hdecides.decisions, hs.agreed, hpending, hbarred.initialization]
    rfl
  case heralded => exact hs.goes_on (calm.mono fun _ he _ => he)
  case outset => exact .barred hnil hbarred
  case met => exact hs.met

theorem works (hs : s.Initializing h) (hi : s.InOrder h) (hw : s.Works [] s') :
    s'.Initializing h := by
  suffices go : ∀ {calls : List DriverCall} {t : Service}, s.Works calls t → calls = [] →
      t.InOrder h ∧ t.Initializing h from (go hw rfl).2
  intro calls t hw hcalls
  induction hw with
  | refl => exact ⟨hi, hs⟩
  | ask _ ha ih =>
    obtain ⟨hi₁, hs₁⟩ := ih hcalls
    exact ⟨hi₁.works (.ask .refl ha), hs₁.asked hi₁ ha⟩
  | call => simp at hcalls

/-- The agent handles the start, where `t` is the service as the handler finds it. -/
theorem begins {t : Service} (hs : s.Initializing []) (hpending : s.initialization = .pending)
    (abides : s.Abides t) (taken : s.Adds (fun e => e.disturbs = false) t)
    (hh : t.Handled .start s') (attempted : t.agent.startAttempted = true)
    (hdropped : s'.dropped = t.dropped) : s'.Initializing [(t, .start)] := by
  have heralded : Each Entry.Heralded s'.journal :=
    hs.goes_on ((taken.trans (hh.calm (.inl rfl))).mono fun _ he _ => he)
  have met : ∀ x ∈ [(t, Agent.Call.start (J := IdentityJob))], x.2 ≠ .start →
      x.1.dropped = false → x.1.initialization ≠ .pending := by simp
  cases hd : t.dropped with
  | true =>
    have habides := abides.trans (hh.abides attempted (.inr hd))
    have hi := habides.initialization
    exact ⟨by rw [habides.decisions, hi, hs.agreed], heralded,
      .orphaned rfl (hdropped.trans hd) (hi.trans hpending), met⟩
  | false =>
    obtain ⟨hdecides, hi⟩ := hh.decides attempted hd
    refine ⟨?_, heralded, .decided rfl hd hi, met⟩
    have hne : s'.initialization ≠ .pending := hi ▸ Initialization.ofSetUp_ne_pending _
    rw [hdecides.decisions, abides.decisions, hs.agreed, hpending,
      Initialization.decided_of_ne hne]
    rfl

/-- The agent handles another message after the start. -/
theorem follows {t : Service} (hs : s.Initializing h) (hne : h ≠ []) (abides : s.Abides t)
    (taken : s.Adds (fun e => e.disturbs = false) t) (hd : t.dropped = s.dropped)
    (hh : t.Handled c s') (hc : c ≠ .start) (attempted : t.agent.startAttempted = true)
    (hdropped : s'.dropped = t.dropped) : s'.Initializing (h ++ [(t, c)]) := by
  have habides := abides.trans (hh.abides attempted (.inl hc))
  have hi := habides.initialization
  -- It stays pending only where the service is gone.
  have gone (hpending : s.initialization = .pending) : s.dropped = true := by
    cases hs.outset with
    | pending hh | barred hh => exact absurd hh hne
    | orphaned _ hd => exact hd
    | decided _ _ hi => exact absurd (hi.symm.trans hpending) (Initialization.ofSetUp_ne_pending _)
  constructor
  case agreed => rw [habides.decisions, hi, hs.agreed]
  case heralded =>
    refine hs.goes_on ?_
    by_cases hpending : s.initialization = .pending
    · have quiet := taken.trans (hh.calm (.inr (hd.trans (gone hpending))))
      exact quiet.mono fun _ he _ => he
    · exact habides.adds.mono fun _ _ h => absurd h hpending
  case outset =>
    cases hs.outset with
    | pending hh | barred hh => exact absurd hh hne
    | orphaned hh hgone hpending =>
      exact .orphaned (by rw [hh]; rfl) (hdropped.trans (hd.trans hgone)) (hi.trans hpending)
    | decided hh hd' hi' => exact .decided (by rw [hh]; rfl) hd' (hi.trans hi')
  case met =>
    refine List.forall_mem_append.mpr ⟨hs.met, ?_⟩
    rintro x hx - hx'
    rw [List.mem_singleton.mp hx] at hx' ⊢
    rw [show t.initialization = s.initialization from abides.initialization]
    intro hpending
    exact absurd ((hd.trans (gone hpending)).symm.trans hx') (by simp)

/-- The agent changes and may be let go. -/
theorem agent (hs : s.Initializing h) (gone : Bool) {a : Agent IdentityJob}
    (hgone : s.dropped = true → gone = true) (ha : s.agent.Loopless → a.Loopless) :
    { s with dropped := gone, agent := a }.Initializing h :=
  hs.abides ⟨rfl, .refl s⟩ (.refl s) hgone fun hb => ⟨ha hb.agent, hb.frozen, hb.incomplete,
    hb.initialization⟩

theorem answerDropped (hs : s.Initializing h) (jobs : List IdentityJob) :
    (s.answerDropped jobs).Initializing h := by
  have noted := noted_answerDropped s jobs
  refine hs.abides noted.abides (adds_answerDropped (fun _ _ => rfl) s jobs)
    (fun hd => noted.dropped.trans hd) fun hb => ?_
  exact ⟨noted.agent ▸ hb.agent, noted.registry ▸ hb.frozen, noted.registry ▸ hb.incomplete,
    noted.initialization.trans hb.initialization⟩

/-- The agent handles a message. -/
theorem handled {a : Agent IdentityJob} {s₁ : Service} (hs : s.Initializing h) (hi : s.InOrder h)
    (ht : s.agent.Takes c a) (hh : ({ s with agent := a }.record (.handling c)).Handled c s₁) :
    { s₁ with agent := s₁.agent.finish }.Initializing
      (h ++ [({ s with agent := a }.record (.handling c), c)]) := by
  have orderly := hi.orderly.taken ht
  have attempted := orderly.attempted (by simp [ht.loop]) (by simp [ht.loop])
  have kept := hh.kept orderly (by simp [ht.loop])
  have abides : s.Abides ({ s with agent := a }.record (.handling c)) :=
    ⟨rfl, (Adds.refl s).record (e := .handling c) rfl⟩
  have taken : s.Adds (fun e => e.disturbs = false)
      ({ s with agent := a }.record (.handling c)) := (Adds.refl s).record (e := .handling c) rfl
  have done : s₁.Initializing (h ++ [({ s with agent := a }.record (.handling c), c)]) := by
    rcases ht.before with ⟨hl, rfl⟩ | ⟨hl, hc⟩
    · obtain rfl := hi.unbegun (.inr hl)
      have hpending : s.initialization = .pending := by
        cases hs.outset with
        | pending _ hi => exact hi
        | barred _ hb => rcases hb.agent.2 with hl' | hl' <;> simp [hl] at hl'
        | orphaned hh | decided hh => cases hh
      exact hs.begins hpending abides taken hh attempted kept.dropped
    · exact hs.follows (hi.begun hl) abides taken rfl hh hc attempted kept.dropped
  exact done.agent s₁.dropped id fun ha => ha.play [.finish]

theorem moved (hs : s.Initializing h) (hi : s.InOrder h) (hm : s.Moved h? s') :
    s'.Initializing (h ++ h?.toList) := by
  cases hm with
  | works hw => exact (List.append_nil h).symm ▸ hs.works hi hw
  | @installed s₁ hw hf d =>
    have h₁ := hs.works hi hw
    have outset : Outset { s₁ with
        registry := { s₁.registry with drivers := s₁.registry.drivers ++ [d] } } h := by
      cases h₁.outset with
      | pending hh hi => exact .pending hh hi
      | barred _ hb => exact absurd (hb.frozen.symm.trans hf) (by simp)
      | orphaned hh hd hi => exact .orphaned hh hd hi
      | decided hh hd hi => exact .decided hh hd hi
    exact (List.append_nil h).symm ▸ ⟨h₁.agreed, h₁.heralded, outset, h₁.met⟩
  | released hd hl =>
    exact (List.append_nil h).symm ▸ hs.agent true (fun _ => rfl) fun ha =>
      ha.play [.release, .sendStop]
  | abandoned hd hl =>
    have released := hs.agent true (fun _ => rfl) fun ha => ha.play [.release, .sendStop]
    exact (List.append_nil h).symm ▸ released.answerDropped s.jobs
  | @exited a he =>
    have left := hs.agent s.dropped (a := a) id fun ha => by
      rcases ha.2 with hl | hl <;> simp [he.before] at hl
    exact (List.append_nil h).symm ▸ left.answerDropped s.jobs
  | handled ht hh => exact hs.handled hi ht hh

end Initializing

theorem Blank.initializing {r : ResolvedRoot} (hb : s.Blank r) (hi : s.initialization = .pending) :
    s.Initializing [] where
  agreed := by simp [decisions, hb.journal, hi, Initialization.decided]
  heralded := hb.journal ▸ .nil
  outset := .pending rfl hi
  met := by simp

theorem initialization_of_new {c : IdentityConfiguration} {place : DataPlace}
    (hn : new c place = .ok s) : s.initialization = .pending := by
  rw [new] at hn
  split at hn
  · cases hn
  · cases hn
  · cases hn
  · split at hn
    · cases hn
    · cases hn
      rfl

theorem initializing_play {c : IdentityConfiguration} {place : DataPlace}
    (hn : new c place = .ok s) (moves : List Move) :
    (s.play moves).Initializing (s.handled moves) := by
  obtain ⟨r, -, blank⟩ := blank_of_new hn
  induction moves using List.reverseRecOn with
  | nil => exact blank.initializing (initialization_of_new hn)
  | append_singleton moves m ih =>
    have inOrder := inOrder_play blank moves
    rw [play_concat, handled_concat]
    exact ih.moved inOrder (moved_move inOrder.orderly m)

/-! ### The pass at the start -/

/-- The run that `setUp` comes to. -/
def startRun (s : Service) : Run PassJob Desk :=
  (s.record (.passBegun .setup [])).runPass (s.callsFor .setup none) []

/-- Whether all drivers were called at the start, all actions and handlers that were accepted in the
pass were performed, and none of them failed. -/
structure SetUpWell (s : Service) : Prop where
  actions : s.startRun.performedIn .actions
    = s.callsFor .setup none ++ s.startRun.accepted .action
  success : s.startRun.performedIn .success = s.startRun.accepted .success
  closing : s.startRun.performedIn .closing = s.startRun.accepted .closing
  unfailing : ∀ e ∈ s.startRun.performed, e.failure = none

theorem setUp_fst (s : Service) :
    s.setUp.1 = if s.startRun.outcome.flags.isTotalSuccess then .ok ()
      else .error s.startRun.outcome.passFailure := rfl

theorem setUpWell_of_ok (hok : s.setUp.1 = .ok ()) : s.SetUpWell := by
  have hflags : s.startRun.outcome.flags.isTotalSuccess = true := by
    by_contra hno
    rw [setUp_fst, if_neg hno] at hok
    cases hok
  let t : Trampoline PassJob :=
    { Trampoline.empty with claimed := true, actions := s.callsFor .setup none, success := [] }
  have settles : Run.Settles .all t s.startRun := Run.settles_toEnd rfl _ _
  have timely : s.startRun.Timely := .toEnd (fun e he => absurd he List.not_mem_nil) _
  have flawless : s.startRun.Flawless _ := settles.flawless timely hflags
  exact ⟨flawless.actions, flawless.success, flawless.closing, flawless.unfailing⟩

theorem exists_failure_of_error {e : ActionError} (herror : s.setUp.1 = .error e) :
    e = s.startRun.outcome.passFailure ∧
      ∃ p ∈ s.startRun.performed, p.failure.isSome = true := by
  rw [setUp_fst] at herror
  cases hflags : s.startRun.outcome.flags.isTotalSuccess with
  | true => rw [hflags] at herror; cases herror
  | false =>
    rw [hflags] at herror
    cases herror
    exact ⟨rfl, Run.exists_failure hflags⟩

/-! ### The decision -/

/-- What is said of the initialization after a history of a new service. -/
structure DecidedOnce (s₀ : Service) (moves : List Move) : Prop where
  /-- It was decided once if it is not pending, and else never. -/
  decisions : (s₀.play moves).decisions = (s₀.play moves).initialization.decided
  /-- It stays as it was decided. -/
  stays : ∀ more, (s₀.play moves).initialization ≠ .pending →
    (s₀.play (moves ++ more)).initialization = (s₀.play moves).initialization
  /-- All who wait for it are told the same, whenever they do. -/
  returned : ∀ more outcome outcome',
    (s₀.play moves).initializationOutcome = some outcome →
    (s₀.play (moves ++ more)).initializationOutcome = some outcome' → outcome' = outcome
  /-- It succeeded only if the agent handled the start and all went well in that pass. -/
  succeeded : (s₀.play moves).initialization = .succeeded →
    ∃ s, (s, .start) ∈ s₀.handled moves ∧ s.dropped = false ∧ s.SetUpWell
  /-- It failed only if the start was refused because drivers were missing, or something failed in
  that pass. -/
  failed : ∀ e, (s₀.play moves).initialization = .failed e →
    (s₀.handled moves = [] ∧ (s₀.play moves).Barred) ∨
      ∃ s, (s, .start) ∈ s₀.handled moves ∧ s.dropped = false ∧
        e = s.startRun.outcome.passFailure ∧ ∃ p ∈ s.startRun.performed, p.failure.isSome = true
  /-- Whatever disturbs parties comes after the decision. -/
  heralded : Each Entry.Heralded (s₀.play moves).journal
  /-- All messages but the start find it decided, unless they find the service gone. -/
  met : ∀ x ∈ s₀.handled moves, x.2 ≠ .start → x.1.dropped = false →
    x.1.initialization ≠ .pending

theorem Initializing.stays {h' : List (Service × Agent.Call IdentityJob)}
    (hs : s.Initializing h) (hs' : s'.Initializing h')
    (hj : s.journal <:+ s'.journal) (hi : s.initialization ≠ .pending) :
    s'.initialization = s.initialization := by
  obtain ⟨new, hj⟩ := hj
  have hdecisions : s'.decisions = s.decisions ++ new.reverse.filterMap Entry.decision? := by
    simp [decisions, ← hj]
  rw [hs.agreed, hs'.agreed, Initialization.decided_of_ne hi] at hdecisions
  have hi' : s'.initialization ≠ .pending := fun h => by
    simp [h, Initialization.decided] at hdecisions
  rw [Initialization.decided_of_ne hi'] at hdecisions
  exact (List.cons.inj hdecisions).1

/-- The message that decided is the start. -/
theorem InOrder.mem_start {x : Service × Agent.Call IdentityJob}
    {rest : List (Service × Agent.Call IdentityJob)} (hi : s.InOrder h) (hh : h = x :: rest) :
    (x.1, .start) ∈ h := by
  obtain ⟨rest', hstart, -⟩ := hi.start.resolve_left (by simp [hh])
  subst hh
  obtain ⟨t, c⟩ := x
  obtain rfl : c = .start := (List.cons.inj hstart).1
  exact List.mem_cons_self

/-- A remote party is asked for before the service is started, and the start is asked for twice. -/
def hasty : List Move :=
  [.register "EchoFeatureDriver" true [] fun _ _ => .finish .succeeded,
    .request (.add .root .any { PartySection.blank with partyName := some "R" }),
    .request .start, .deliver, .deliver, .request .start]

/-- One decision was made when the start was handled, and the party was added after that. -/
example : (new .default ⟨"/home", none⟩).toOption.map (fun s =>
    ((s.play (hasty.take 3)).decisions.length, (s.play hasty).decisions.length,
      (s.play hasty).initializationOutcome.map Except.isOk, (s.play hasty).graph.remotes))
      = some (0, 1, some true, [0]) := by
  decide +kernel

/-- Where a driver is missing, the attempt to start decides. -/
example : (new .default ⟨"/home", none⟩).toOption.map (fun s =>
    let t := s.play [.request (.expect "Echo"), .request .start, .request .start, .deliver]
    (t.decisions.length, t.initializationOutcome.map Except.isOk)) = some (1, some false) := by
  decide +kernel

end Service

end PartyGraph
