import Mathlib.Data.List.Induction
import PartyGraph.Proofs.Service.Moves

/-!
# The order of calls over a whole history

The calls of drivers in a history are the concatenation of those that are due for the messages that
the agent handles, in the order in which it handles them. What is due for a message is settled when
the handler finds it, by the list of drivers and, for an addition or a destruction, by the checks
made at that time; nothing that drivers do afterwards adds a call, drops one or moves it.

The list of drivers is closed by the first start, and the loop makes its first turn after that, so
every message finds the same list. The first message is the start, and there is one start and one
stop at most: requests to stop are counted by `Agent.stopsLeft`.

## Main definitions

* `Service.driverCalls`: all calls of drivers so far.
* `Service.handled`: the messages handled in a history, each with the service that it found.
* `Service.dueCalls`: the calls that are due for a message.
* `Service.InOrder`, `Service.CallsInOrder`: what links the three.

## Main results

* `Service.Handled.driverCalls`: handling a message makes the calls that are due.
* `Service.inOrder_play`: the calls of a whole history.
-/

namespace PartyGraph

/-- The call of a driver that an entry tells of, if it does. -/
def Entry.driverCall? : Entry → Option DriverCall
  | .called position hook target => some ⟨position, hook, target⟩
  | _ => none

theorem Entry.OfRequest.driverCall?_eq_none {e : Entry} (h : e.OfRequest) :
    e.driverCall? = none := by
  cases e <;> first | rfl | cases h

theorem Entry.OfHandling.driverCall?_eq_none {e : Entry} (h : e.OfHandling) :
    e.driverCall? = none := by
  cases e <;> first | rfl | cases h

@[simp] theorem DriverCall.driverCall?_entry (c : DriverCall) : c.entry.driverCall? = some c := rfl

namespace Service

variable {s s' : Service}

/-- All calls of drivers so far, in order. -/
def driverCalls (s : Service) : List DriverCall := s.journal.reverse.filterMap Entry.driverCall?

/-- The messages that the agent handles in a history, each with the service that the handler
finds. -/
def handled (s : Service) : List Move → List (Service × Agent.Call IdentityJob)
  | [] => []
  | m :: rest => (s.handling? m).toList ++ (s.move m).handled rest

/-- The calls that are due for a message which finds the service `s`: none when the service is gone,
when an addition is refused or when a party was destroyed before. -/
def dueCalls (s : Service) (c : Agent.Call IdentityJob) : List DriverCall :=
  if s.dropped then []
  else match c with
    | .start => s.tour .setup none
    | .job (.add b) => if (s.batchRefusal b).isNone then s.batchTour b else []
    | .job (.destroy id) =>
      if s.graph.isGone id then [] else (s.tour .teardownDynamic (some id)).reverse
    | .heartbeat _ => []
    | .stop => (s.tour .teardown none).reverse

/-! ### Calls of a pass and of a message -/

@[simp] theorem driverCalls_record (s : Service) (e : Entry) :
    (s.record e).driverCalls = s.driverCalls ++ e.driverCall?.toList :=
  filterMap_journal_cons Entry.driverCall? e s.journal

theorem driverCalls_of_journal {new : List Entry} (h : s'.journal = new ++ s.journal)
    (hnew : ∀ e ∈ new, e.driverCall? = none) : s'.driverCalls = s.driverCalls := by
  rw [driverCalls, h]
  exact filterMap_journal_append hnew s.journal

theorem Asked.driverCalls (h : s.Asked s') : s'.driverCalls = s.driverCalls := by
  obtain ⟨new, hnew, -, hall⟩ := h.journal
  exact driverCalls_of_journal hnew fun e he => (hall e he).driverCall?_eq_none

theorem Noted.driverCalls (h : s.Noted s') : s'.driverCalls = s.driverCalls := by
  obtain ⟨new, hnew, -, hall⟩ := h.journal
  exact driverCalls_of_journal hnew fun e he => (hall e he).driverCall?_eq_none

theorem Works.driverCalls {calls : List DriverCall} (h : s.Works calls s') :
    s'.driverCalls = s.driverCalls ++ calls := by
  induction h with
  | refl => simp
  | ask _ h' ih => rw [h'.driverCalls, ih]
  | call _ c ih => rw [driverCalls_record, ih, DriverCall.driverCall?_entry]; simp

/-- Handling a message makes the calls that are due for it. -/
theorem Handled.driverCalls {c : Agent.Call IdentityJob} (h : s.Handled c s') :
    s'.driverCalls = s.driverCalls ++ s.dueCalls c := by
  have worked {hook : Hook} {targets : List PartyId} {calls : List DriverCall} {s₁ : Service}
      (h : (s.record (.passBegun hook targets)).Works calls s₁) :
      s₁.driverCalls = s.driverCalls ++ calls := by
    rw [h.driverCalls, driverCalls_record]
    simp [Entry.driverCall?]
  cases h with
  | idle hd => simp [dueCalls, hd]
  | @started s₁ hd works i =>
    rw [driverCalls_record]
    show s₁.driverCalls ++ [] = _
    simpa [dueCalls, hd] using worked works
  | beat hd => simp [dueCalls, hd, tell, Entry.driverCall?]
  | stopped hd works => simpa [dueCalls, hd] using worked works
  | orphaned hd => simp [dueCalls, hd, answer, Entry.driverCall?]
  | refused hd hr => simp [dueCalls, hd, hr, answer, Entry.driverCall?]
  | failed hd hr _ works =>
    rw [answer, driverCalls_record]
    simpa [dueCalls, hd, hr, Entry.driverCall?] using worked works
  | @added b s₁ _ hd hr _ works after =>
    rw [answer, driverCalls_record, after.driverCalls, (noted_publish s₁ b).driverCalls]
    simpa [dueCalls, hd, hr, Entry.driverCall?] using worked works
  | gone hd hg => simp [dueCalls, hd, hg]
  | missing hd hg works => simpa [dueCalls, hd, hg] using worked works
  | destroyed hd hg works =>
    rw [(noted_removeParty _ _ _).driverCalls]
    simpa [dueCalls, hd, hg] using worked works

/-! ### Histories -/

theorem handled_append (s : Service) (moves more : List Move) :
    s.handled (moves ++ more) = s.handled moves ++ (s.play moves).handled more := by
  induction moves generalizing s with
  | nil => rfl
  | cons m moves ih =>
    rw [List.cons_append, handled, ih, handled, List.append_assoc]
    rfl

theorem handled_concat (s : Service) (moves : List Move) (m : Move) :
    s.handled (moves ++ [m]) = s.handled moves ++ ((s.play moves).handling? m).toList := by
  rw [handled_append, handled, handled, List.append_nil]

/-- What holds of a service after a history in which the messages of `h` were handled. -/
structure InOrder (s : Service) (h : List (Service × Agent.Call IdentityJob)) : Prop where
  orderly : s.Orderly
  calls : s.driverCalls = h.flatMap fun x => x.1.dueCalls x.2
  drivers : ∀ x ∈ h, x.1.registry.drivers = s.registry.drivers
  frozen : h ≠ [] → s.registry.frozen = true
  /-- There is nothing handled before the first turn of the loop. -/
  unbegun : s.agent.loop = .absent ∨ s.agent.loop = .fresh → h = []
  begun : s.agent.loop = .waiting → h ≠ []
  start : h = [] ∨ ∃ rest, h.map (·.2) = .start :: rest ∧ .start ∉ rest
  stops : (h.map (·.2)).countP Agent.Call.isStop + s.agent.stopsLeft ≤ 1

namespace InOrder

variable {h : List (Service × Agent.Call IdentityJob)}

/-- Where nothing was handled and nothing called, it is enough that the loop did not turn. -/
theorem of_nil (ho : s.Orderly) (hc : s.driverCalls = []) (hl : s.agent.loop ≠ .waiting)
    (hstops : s.agent.stopsLeft ≤ 1) : s.InOrder [] :=
  ⟨ho, hc, by simp, by simp, fun _ => rfl, fun h => absurd h hl, .inl rfl, by simpa using hstops⟩

theorem works (hs : s.InOrder h) (hw : s.Works [] s') : s'.InOrder h where
  orderly := hw.orderly hs.orderly
  calls := by rw [hw.driverCalls, List.append_nil, hs.calls]
  drivers x hx := by rw [hw.drivers, hs.drivers x hx]
  frozen hne := hw.frozen (hs.frozen hne)
  unbegun hl := by
    rcases hw.loop_cases with h | ⟨h, -⟩
    · exact hs.unbegun (h ▸ hl)
    · exact hs.unbegun (.inl h)
  begun hl := by
    rcases hw.loop_cases with h | ⟨-, h⟩
    · exact hs.begun (h ▸ hl)
    · rw [h] at hl
      cases hl
  start := hs.start
  stops := Nat.le_trans (Nat.add_le_add_left hw.stopsLeft _) hs.stops

/-- Once the loop is gone or has turned, changes of the agent that leave it where it is or end it
matter no more. -/
theorem agent (hs : s.InOrder h) (ho : s'.Orderly) (hc : s'.driverCalls = s.driverCalls)
    (hr : s'.registry = s.registry) (hl : s'.agent.loop = s.agent.loop ∨ s'.agent.loop = .exited)
    (hstops : s'.agent.stopsLeft ≤ s.agent.stopsLeft) : s'.InOrder h where
  orderly := ho
  calls := by rw [hc, hs.calls]
  drivers x hx := by rw [hr, hs.drivers x hx]
  frozen hne := by rw [hr, hs.frozen hne]
  unbegun hl' := by
    rcases hl with hl | hl
    · exact hs.unbegun (hl ▸ hl')
    · simp [hl] at hl'
  begun hl' := by
    rcases hl with hl | hl
    · exact hs.begun (hl ▸ hl')
    · simp [hl] at hl'
  start := hs.start
  stops := Nat.le_trans (Nat.add_le_add_left hstops _) hs.stops

/-- Handling a message puts it at the end of those handled, and its calls at the end of those
made. -/
theorem handled {c : Agent.Call IdentityJob} {a : Agent IdentityJob} {s₁ : Service}
    (hs : s.InOrder h) (ht : s.agent.Takes c a)
    (hc : ({ s with agent := a }.record (.handling c)).Handled c s₁) :
    { s₁ with agent := s₁.agent.finish }.InOrder
      (h ++ [({ s with agent := a }.record (.handling c), c)]) := by
  have kept := hc.kept (hs.orderly.taken ht) (by simp [ht.loop])
  have hl₁ : s₁.agent.loop = .calling c := kept.loop.trans ht.loop
  have hl : s₁.agent.finish.loop = .waiting := Agent.loop_finish hl₁
  have attempted : s₁.agent.startAttempted = true :=
    kept.orderly.attempted (by simp [hl₁]) (by simp [hl₁])
  have frozen : s₁.registry.frozen = true := kept.orderly.frozen attempted
  refine ⟨(Moved.handled ht hc).orderly hs.orderly, ?_, ?_, fun _ => frozen,
    fun h => by simp [hl] at h, fun _ => by simp, .inr ?_, ?_⟩
  · show s₁.driverCalls = _
    rw [hc.driverCalls, driverCalls_record, List.flatMap_append, ← hs.calls]
    simp [Entry.driverCall?]
    rfl
  · intro x hx
    rcases List.mem_append.mp hx with hx | hx
    · exact (hs.drivers x hx).trans kept.drivers.symm
    · rw [List.mem_singleton.mp hx]
      exact kept.drivers.symm
  · rcases ht.before with ⟨hfresh, rfl⟩ | ⟨hwaiting, hne⟩
    · rw [hs.unbegun (.inr hfresh)]
      exact ⟨[], rfl, by simp⟩
    · obtain ⟨rest, hrest, hno⟩ := hs.start.resolve_left (hs.begun hwaiting)
      exact ⟨rest ++ [c], by simp [hrest], by simpa [hno] using hne.symm⟩
  · have hfinish := Agent.stopsLeft_finish_le s₁.agent
    have hkept : s₁.agent.stopsLeft ≤ a.stopsLeft := kept.stopsLeft
    have htake := ht.stopsLeft
    have hstops := hs.stops
    simp only [List.map_append, List.countP_append, List.map_cons, List.map_nil,
      List.countP_singleton]
    show _ + s₁.agent.finish.stopsLeft ≤ 1
    omega

theorem moved {h? : Option (Service × Agent.Call IdentityJob)} (hs : s.InOrder h)
    (hm : s.Moved h? s') : s'.InOrder (h ++ h?.toList) := by
  have ho := hm.orderly hs.orderly
  cases hm with
  | works hw => simpa using hs.works hw
  | @installed s₁ hw hf d =>
    have hnil : h = [] := Decidable.byContradiction fun hne => by
      simp [hw.frozen (hs.frozen hne)] at hf
    subst hnil
    have := hs.works hw
    exact .of_nil ho this.calls (fun hl => this.begun hl rfl) (by simpa using this.stops)
  | released hd hl =>
    simpa using hs.agent ho rfl rfl (.inl (Agent.undisturbed_release hl).loop)
      (Agent.stopsLeft_release_le _)
  | abandoned hd hl =>
    have noted := noted_answerDropped { s with dropped := true, agent := s.agent.release } s.jobs
    refine (List.append_nil h).symm ▸ hs.agent ho noted.driverCalls noted.registry (.inr ?_) ?_
    · rw [noted.agent]
      exact (Agent.release_of_absent hl).1
    · rw [noted.agent]
      exact Agent.stopsLeft_release_le _
  | @exited a he =>
    have noted := noted_answerDropped { s with agent := a } s.jobs
    refine (List.append_nil h).symm ▸ hs.agent ho noted.driverCalls noted.registry (.inr ?_) ?_
    · rw [noted.agent]
      exact he.loop
    · rw [noted.agent]
      exact he.stopsLeft
  | handled ht hc => exact hs.handled ht hc

end InOrder

theorem Blank.inOrder {r : ResolvedRoot} (h : s.Blank r) : s.InOrder [] :=
  .of_nil h.orderly (by simp [driverCalls, h.journal]) (by simp [h.loop]) (by simp [h.stopsLeft])

theorem inOrder_play {r : ResolvedRoot} (h : s.Blank r) (moves : List Move) :
    (s.play moves).InOrder (s.handled moves) := by
  induction moves using List.reverseRecOn with
  | nil => exact h.inOrder
  | append_singleton moves m ih =>
    rw [play_concat, handled_concat]
    exact ih.moved (moved_move ih.orderly m)

/-- What the order of calls is after a history of a new service: the calls of drivers are those due
for the messages that the agent has handled, one message after the other, and all messages find the
list of drivers that the service has in the end. -/
structure CallsInOrder (s₀ : Service) (moves : List Move) : Prop where
  calls : (s₀.play moves).driverCalls = (s₀.handled moves).flatMap fun x => x.1.dueCalls x.2
  drivers : ∀ x ∈ s₀.handled moves, x.1.registry.drivers = (s₀.play moves).registry.drivers
  /-- The first message is the start, and there is no other start. -/
  start : s₀.handled moves = [] ∨
    ∃ rest, (s₀.handled moves).map (·.2) = .start :: rest ∧ .start ∉ rest
  /-- There is at most one stop. -/
  stop : ((s₀.handled moves).map (·.2)).countP Agent.Call.isStop ≤ 1

/-- **The order of calls.** Whatever is asked of a service and whatever its drivers do, their calls
come in order. -/
theorem callsInOrder {c : IdentityConfiguration} {place : DataPlace} {s₀ : Service}
    (h : new c place = .ok s₀) (moves : List Move) : s₀.CallsInOrder moves := by
  obtain ⟨r, -, hblank⟩ := blank_of_new h
  have inOrder := inOrder_play hblank moves
  exact ⟨inOrder.calls, inOrder.drivers, inOrder.start,
    Nat.le_trans (Nat.le_add_right _ _) inOrder.stops⟩

/-- A driver is registered and the service started. -/
theorem callsInOrder_of_start :
    ∃ s₀, new .default ⟨"/home", none⟩ = .ok s₀ ∧
      s₀.CallsInOrder [.register "EchoFeatureDriver" true [] fun _ _ => .finish .succeeded,
        .request .start, .deliver] := by
  obtain ⟨s₀, h⟩ := exists_new_default
  exact ⟨s₀, h, callsInOrder h _⟩

end Service

end PartyGraph
