import Mathlib.Data.List.Induction
import PartyGraph.Proofs.Service.CallOrder
import PartyGraph.Proofs.Service.Steady
import PartyGraph.Proofs.Since

/-!
# What happens after the drivers are torn down

When the agent handles the stop, all drivers are torn down, and one expects this to be the end: no
driver is called any more, no party comes or goes, and nothing is told of parties. But the agent
leaves only at the close message, which is posted when the stop has been handled, and it takes all
messages that were posted before it.

Of these, additions are harmless. The agent does not run any more once a stop is requested, and
every addition is refused for that. A destruction makes no such check. If it was posted before the
agent leaves, then the drivers are called for the party and the party is taken out of the graph,
after the drivers were torn down. The result says that nothing else can go wrong: the shutdown is
final exactly if no message handled after the stop destroys a party
(`Service.shutdownFinal_iff`).

## Main definitions

* `Entry.stirs`: an entry tells of parties that come or go.
* `Service.sinceTearDown`: the entries of the journal since the drivers were torn down.
* `Service.ShutdownFinal`: nothing but the calls to tear down has happened since.
* `Service.destroys`: a message destroys a party.

## Main results

* `Service.Handled.stirs`: what handling a message does to parties when the agent does not run.
* `Service.Aftermath.moved`: what a move adds to what happened since the drivers were torn down.
-/

namespace PartyGraph

/-! ### Entries -/

namespace Entry

/-- Whether the pass in which all drivers are torn down begins with an entry. -/
def beginsTearDown : Entry → Bool
  | .passBegun .teardown _ => true
  | _ => false

/-- Whether an entry tells of parties that come or go: a list of parties is changed, or someone is
told of such a change. -/
def stirs : Entry → Bool
  | .changed (.insert _) | .changed (.remove _) | .changed (.clear _) => true
  | .told _ (.party _) => true
  | _ => false

/-- Whether an entry neither tells of parties that come or go nor begins to tear down. -/
structure Still (e : Entry) : Prop where
  begins : e.beginsTearDown = false
  stirs : e.stirs = false

theorem OfRequest.still {e : Entry} (h : e.OfRequest) : e.Still := by
  cases e with
  | changed c => cases c <;> first | exact ⟨rfl, rfl⟩ | cases h
  | _ => first | exact ⟨rfl, rfl⟩ | cases h

theorem OfHandling.begins {e : Entry} (h : e.OfHandling) : e.beginsTearDown = false := by
  cases e <;> first | rfl | cases h

end Entry

namespace Service

variable {s s' s'' : Service}

/-- Whether the drivers were torn down. -/
def tornDown (s : Service) : Bool := s.journal.reverse.any Entry.beginsTearDown

/-- The entries of the journal since the drivers were torn down, in order. -/
def sinceTearDown (s : Service) : List Entry := since Entry.beginsTearDown s.journal.reverse

/-- Whether the shutdown is final: once it has begun to tear down the drivers, there are the calls
of that pass, and no party has come or gone or been told to. -/
structure ShutdownFinal (s : Service) : Prop where
  calls : s.tornDown = true →
    s.sinceTearDown.filterMap Entry.driverCall? = (s.tour .teardown none).reverse
  still : ∀ e ∈ s.sinceTearDown, e.stirs = false

/-- Whether all drivers are torn down for a message. -/
def tearsDown (s : Service) (c : Agent.Call IdentityJob) : Bool := c.isStop && !s.dropped

/-- Whether a message destroys a party: it asks for that, and it was not done before. -/
def destroys (s : Service) : Agent.Call IdentityJob → Bool
  | .job (.destroy id) => !s.dropped && !s.graph.isGone id
  | _ => false

/-- The messages that are handled after the one for which the drivers are torn down. -/
def messagesSince (h : List (Service × Agent.Call IdentityJob)) :
    List (Service × Agent.Call IdentityJob) :=
  since (fun x => x.1.tearsDown x.2) h

/-! ### Entries of passes and requests -/

theorem tornDown_of_journal {new : List Entry} (h : s'.journal = new ++ s.journal) :
    s'.tornDown = (s.tornDown || new.any Entry.beginsTearDown) := by
  simp [tornDown, h, List.any_append]

theorem sinceTearDown_of_journal {new : List Entry} (h : s'.journal = new ++ s.journal)
    (ht : s.tornDown = true) : s'.sinceTearDown = s.sinceTearDown ++ new.reverse := by
  rw [sinceTearDown, h, List.reverse_append]
  exact since_append ht

/-- Nothing but still entries was made. -/
def Stays (s s' : Service) : Prop := ∃ new, s'.journal = new ++ s.journal ∧ ∀ e ∈ new, e.Still

namespace Stays

theorem refl (s : Service) : s.Stays s := ⟨[], rfl, by simp⟩

theorem trans (h : s.Stays s') (h' : s'.Stays s'') : s.Stays s'' := by
  obtain ⟨new, hj, hall⟩ := h
  obtain ⟨new', hj', hall'⟩ := h'
  exact ⟨new' ++ new, by rw [hj', hj, List.append_assoc], List.forall_mem_append.mpr ⟨hall', hall⟩⟩

theorem record (h : s.Stays s') {e : Entry} (he : e.Still) : s.Stays (s'.record e) := by
  obtain ⟨new, hj, hall⟩ := h
  exact ⟨e :: new, congrArg (e :: ·) hj, List.forall_mem_cons.mpr ⟨he, hall⟩⟩

theorem of_journal (h : s.Stays s') (hj : s''.journal = s'.journal) : s.Stays s'' := by
  obtain ⟨new, hnew, hall⟩ := h
  exact ⟨new, hj.trans hnew, hall⟩

theorem tornDown (h : s.Stays s') : s'.tornDown = s.tornDown := by
  obtain ⟨new, hj, hall⟩ := h
  rw [tornDown_of_journal hj, List.any_eq_false.mpr fun e he => by simp [(hall e he).begins],
    Bool.or_false]

end Stays

theorem Asked.stays (h : s.Asked s') : s.Stays s' := by
  obtain ⟨new, hj, -, hall⟩ := h.journal
  exact ⟨new, hj, fun e he => (hall e he).still⟩

theorem Works.stays {calls : List DriverCall} (h : s.Works calls s') : s.Stays s' :=
  h.induction (P := fun t => s.Stays t) (fun _ _ ht ha => ht.trans ha.stays)
    (fun _ _ ht => ht.record ⟨rfl, rfl⟩) (.refl s)

theorem stays_answerDropped (s : Service) (jobs : List IdentityJob) :
    s.Stays (s.answerDropped jobs) :=
  adds_answerDropped (fun _ _ => ⟨rfl, rfl⟩) s jobs

theorem Noted.tornDown (h : s.Noted s') : s'.tornDown = s.tornDown := by
  obtain ⟨new, hj, -, hall⟩ := h.journal
  rw [tornDown_of_journal hj, List.any_eq_false.mpr fun e he => by simp [(hall e he).begins],
    Bool.or_false]

/-- The calls that entries tell of. -/
theorem filterMap_driverCall?_of_journal {new : List Entry} {calls : List DriverCall}
    (h : s'.journal = new ++ s.journal) (hc : s'.driverCalls = s.driverCalls ++ calls) :
    new.reverse.filterMap Entry.driverCall? = calls := by
  rw [driverCalls, h, List.reverse_append, List.filterMap_append] at hc
  exact List.append_cancel_left hc

/-! ### Messages -/

/-- The drivers are torn down when they are asked to, and only then. -/
theorem Handled.tornDown {c : Agent.Call IdentityJob} (h : s.Handled c s') :
    s'.tornDown = (s.tornDown || s.tearsDown c) := by
  have begun {hook : Hook} {targets : List PartyId} {calls : List DriverCall} {s₁ : Service}
      (hh : hook ≠ .teardown) (hw : (s.record (.passBegun hook targets)).Works calls s₁) :
      s₁.tornDown = s.tornDown :=
    hw.stays.tornDown.trans
      ((Stays.refl s).record ⟨by cases hook <;> first | rfl | exact absurd rfl hh, rfl⟩).tornDown
  have recorded {s₁ : Service} {e : Entry} (he : e.Still) : (s₁.record e).tornDown = s₁.tornDown :=
    ((Stays.refl s₁).record he).tornDown
  cases h with
  | idle hd => simp [tearsDown, hd]
  | @started s₁ _ works i =>
    have h₁ : ({ s₁ with initialization := i }.record (.initialized i)).tornDown = s₁.tornDown :=
      recorded ⟨rfl, rfl⟩
    rw [h₁, begun (by simp) works]
    simp [tearsDown, Agent.Call.isStop]
  | beat | orphaned | refused => exact (recorded ⟨rfl, rfl⟩).trans (Bool.or_false _).symm
  | stopped hd works =>
    let begin : Entry := .passBegun .teardown []
    have hj : (s.record begin).journal = [begin] ++ s.journal := rfl
    rw [works.stays.tornDown, tornDown_of_journal hj]
    simp [begin, tearsDown, hd, Agent.Call.isStop, Entry.beginsTearDown]
  | failed _ _ _ works =>
    exact (recorded ⟨rfl, rfl⟩).trans ((begun (by simp) works).trans (Bool.or_false _).symm)
  | @added b s₁ s₂ _ _ _ works after =>
    refine (recorded ⟨rfl, rfl⟩).trans ?_
    rw [after.stays.tornDown, (noted_publish s₁ b).tornDown, begun (by simp) works]
    exact (Bool.or_false _).symm
  | gone => exact (Bool.or_false _).symm
  | missing _ _ works => exact (begun (by simp) works).trans (Bool.or_false _).symm
  | destroyed _ _ works =>
    rw [(noted_removeParty _ _ _).tornDown, begun (by simp) works]
    exact (Bool.or_false _).symm

/-- A party that is taken out of the graph leaves an entry that tells of it. -/
theorem stirs_removeParty (s : Service) (id : PartyId) (p : OwnedParty) :
    ∃ new, (s.removeParty id p).journal = new ++ s.journal ∧ new.any Entry.stirs = true := by
  refine removeParty_induction (P := fun t => ∃ new, t.journal = new ++ s.journal ∧
    new.any Entry.stirs = true) s id p (fun _ => ⟨[.changed (.remove id)], rfl, rfl⟩)
    (fun _ => ⟨[.changed (.clear id), .changed (.remove id)], rfl, rfl⟩) ?_ ?_
  · rintro t channel i ⟨new, hj, hany⟩
    exact ⟨_ :: new, congrArg (_ :: ·) hj, by rw [List.any_cons, hany, Bool.or_true]⟩
  · rintro t i - ⟨new, hj, hany⟩
    exact ⟨_ :: new, congrArg (_ :: ·) hj, by rw [List.any_cons, hany, Bool.or_true]⟩

/-- What handling a message does to parties when the agent does not run: nothing, unless the
message destroys a party. Additions are refused. -/
theorem Handled.stirs {g₀ : Graph} {c : Agent.Call IdentityJob} (h : s.Handled c s')
    (hc : Coherent g₀ (.ofCall c) s.jobs s) (hrun : s.agent.status ≠ .running) :
    ∃ new, s'.journal = new ++ s.journal ∧ new.any Entry.stirs = s.destroys c := by
  have quiet {new : List Entry} (h : ∀ e ∈ new, e.stirs = false) : new.any Entry.stirs = false :=
    List.any_eq_false.mpr fun e he => by simp [h e he]
  -- What a pass leaves behind, together with the entry that it begins with.
  have worked {hook : Hook} {targets : List PartyId} {calls : List DriverCall} {s₁ : Service}
      (hw : (s.record (.passBegun hook targets)).Works calls s₁) :
      ∃ new, s₁.journal = new ++ s.journal ∧ ∀ e ∈ new, e.stirs = false := by
    obtain ⟨new, hj, hall⟩ := hw.stays
    refine ⟨new ++ [.passBegun hook targets], by simp [hj], ?_⟩
    exact List.forall_mem_append.mpr ⟨fun e he => (hall e he).stirs, by simp [Entry.stirs]⟩
  have refuses {b : Batch} (hr : s.batchRefusal b = none) : False := by
    rw [batchRefusal, if_pos hrun] at hr
    cases hr
  cases h with
  | idle hd =>
    refine ⟨[], rfl, ?_⟩
    unfold destroys
    split <;> simp [hd]
  | started _ works i =>
    obtain ⟨new, hj, hall⟩ := worked works
    refine ⟨.initialized i :: new, congrArg (_ :: ·) hj, quiet ?_⟩
    exact List.forall_mem_cons.mpr ⟨rfl, hall⟩
  | beat | orphaned | refused => exact ⟨[_], rfl, rfl⟩
  | stopped _ works =>
    obtain ⟨new, hj, hall⟩ := worked works
    exact ⟨new, hj, quiet hall⟩
  | failed _ hr | added _ hr => exact (refuses hr).elim
  | gone _ hg => exact ⟨[], rfl, by simp [destroys, hg]⟩
  | missing _ _ works hp => exact absurd hp (hc.party?_ne_none works.graph_extends)
  | @destroyed id s₁ p hd hg works =>
    obtain ⟨new, hj, -⟩ := worked works
    obtain ⟨new', hj', hany⟩ := stirs_removeParty s₁ id p
    refine ⟨new' ++ new, by rw [hj', hj, List.append_assoc], ?_⟩
    rw [List.any_append, hany, destroys, hd, hg]
    rfl

/-- What has happened since the drivers were torn down, when a message has begun that. -/
theorem Handled.sinceTearDown {c : Agent.Call IdentityJob} (h : s.Handled c s')
    (ht : s.tearsDown c = true) (hs : s.tornDown = false) :
    s'.sinceTearDown.filterMap Entry.driverCall? = (s.tour .teardown none).reverse ∧
      s'.sinceTearDown.any Entry.stirs = false := by
  cases h with
  | stopped hd works =>
    obtain ⟨new, hj, hall⟩ := works.stays
    have hsince : s'.sinceTearDown = new.reverse := by
      rw [Service.sinceTearDown, hj, journal_record, List.reverse_append, List.reverse_cons,
        List.append_assoc]
      exact since_append_cons hs rfl
    rw [hsince, filterMap_driverCall?_of_journal hj works.driverCalls]
    exact ⟨rfl, List.any_eq_false.mpr fun e he => by simp [(hall e (List.mem_reverse.mp he)).stirs]⟩
  | idle hd => simp [tearsDown, hd] at ht
  | started | beat | orphaned | refused | failed | added | gone | missing | destroyed =>
    simp [tearsDown, Agent.Call.isStop] at ht

/-! ### Moves -/

/-- When the agent handles no message, no party comes or goes and no drivers are torn down. -/
theorem Moved.stays (h : s.Moved none s') : s.Stays s' := by
  cases h with
  | works hw => exact hw.stays
  | installed hw => exact hw.stays.of_journal rfl
  | released => exact .refl s
  | abandoned | exited => exact (Stays.refl s).trans (stays_answerDropped _ _)

/-- A move tears the drivers down if it handles a message for which that is done. -/
theorem Moved.tornDown {h? : Option (Service × Agent.Call IdentityJob)} (h : s.Moved h? s') :
    s'.tornDown = (s.tornDown || h?.toList.any fun x => x.1.tearsDown x.2) := by
  cases h? with
  | none => rw [h.stays.tornDown]; exact (Bool.or_false _).symm
  | some x =>
    cases h with
    | @handled c a s₁ ht hc =>
      have h₁ : ({ s with agent := a }.record (.handling c)).tornDown = s.tornDown :=
        ((Stays.refl s).record ⟨rfl, rfl⟩).tornDown
      refine hc.tornDown.trans ?_
      rw [h₁]
      simp

/-- What has happened since the drivers were torn down, when the message of this move has begun
that. -/
theorem Moved.sinceTearDown {x : Service × Agent.Call IdentityJob} (h : s.Moved (some x) s')
    (hx : x.1.tearsDown x.2 = true) (hs : s.tornDown = false) :
    s'.sinceTearDown.filterMap Entry.driverCall? = (x.1.tour .teardown none).reverse ∧
      s'.sinceTearDown.any Entry.stirs = false := by
  cases h with
  | @handled c a s₁ ht hc =>
    have taken : ({ s with agent := a }.record (.handling c)).tornDown = s.tornDown :=
      ((Stays.refl s).record ⟨rfl, rfl⟩).tornDown
    exact hc.sinceTearDown hx (taken.trans hs)

/-- What a move does to parties when the agent does not run. -/
theorem Moved.stirs {g₀ : Graph} {h? : Option (Service × Agent.Call IdentityJob)}
    (h : s.Moved h? s') (hc : Coherent g₀ .free s.jobs s)
    (hrun : ∀ x ∈ h?, x.1.agent.status ≠ .running) :
    ∃ new, s'.journal = new ++ s.journal ∧
      new.any Entry.stirs = h?.toList.any fun x => x.1.destroys x.2 := by
  cases h? with
  | none =>
    obtain ⟨new, hj, hall⟩ := h.stays
    exact ⟨new, hj, List.any_eq_false.mpr fun e he => by simp [(hall e he).stirs]⟩
  | some x =>
    cases h with
    | @handled c a s₁ ht hh =>
      obtain ⟨new, hj, hany⟩ := hh.stirs (hc.taken ht) (hrun _ rfl)
      exact ⟨new ++ [.handling c], by simp [hj], by simp [List.any_append, hany, Entry.stirs]⟩

/-! ### Histories -/

/-- Once the drivers are torn down the agent does not run, and it takes neither a start nor a stop
any more. -/
theorem InOrder.after_tearDown {h : List (Service × Agent.Call IdentityJob)} (hs : s.InOrder h)
    (hd : (h.any fun x => x.1.tearsDown x.2) = true) {c : Agent.Call IdentityJob}
    {a : Agent IdentityJob} (ht : s.agent.Takes c a) :
    a.status ≠ .running ∧ c ≠ .start ∧ c.isStop = false := by
  obtain ⟨x, hx, hdown⟩ := List.any_eq_true.mp hd
  have stopped : 0 < (h.map (·.2)).countP Agent.Call.isStop :=
    List.countP_pos_iff.mpr ⟨x.2, List.mem_map_of_mem hx, (Bool.and_eq_true_iff.mp hdown).1⟩
  have left : s.agent.stopsLeft = 0 := by
    have := hs.stops
    omega
  have taken := ht.stopsLeft
  refine ⟨fun hrun => ?_, fun hstart => ?_, ?_⟩
  · have : 0 < a.stopsLeft := by
      rw [Agent.stopsLeft, if_pos hrun]
      omega
    omega
  · rcases ht.before with ⟨hfresh, -⟩ | ⟨-, hne⟩
    · exact List.not_mem_nil (hs.unbegun (.inr hfresh) ▸ hx)
    · exact hne hstart
  · cases hstop : c.isStop with
    | false => rfl
    | true =>
      rw [if_pos hstop] at taken
      omega

/-- When the agent does not run and is neither started nor stopped, the drivers are called for
destructions alone. -/
theorem dueCalls_eq_nil {c : Agent.Call IdentityJob} (hrun : s.agent.status ≠ .running)
    (hstart : c ≠ .start) (hstop : c.isStop = false) (hc : s.destroys c = false) :
    s.dueCalls c = [] := by
  unfold dueCalls
  cases hd : s.dropped with
  | true => rfl
  | false =>
    cases c with
    | start => exact absurd rfl hstart
    | job j =>
      cases j with
      | add b => simp [batchRefusal, hrun]
      | destroy id =>
        have hgone : s.graph.isGone id = true := by simpa [destroys, hd] using hc
        simp [hgone]
    | heartbeat => rfl
    | stop => cases hstop

/-- What has happened since the drivers were torn down, when the messages of `h` were handled. -/
structure Aftermath (s : Service) (h : List (Service × Agent.Call IdentityJob)) : Prop where
  tornDown : s.tornDown = h.any fun x => x.1.tearsDown x.2
  calls : s.tornDown = true → s.sinceTearDown.filterMap Entry.driverCall? =
    (s.tour .teardown none).reverse ++ (messagesSince h).flatMap fun x => x.1.dueCalls x.2
  stirs : s.sinceTearDown.any Entry.stirs = (messagesSince h).any fun x => x.1.destroys x.2
  due : ∀ x ∈ messagesSince h, x.1.destroys x.2 = false → x.1.dueCalls x.2 = []

theorem tour_congr (h : s'.registry.drivers = s.registry.drivers) (hook : Hook)
    (target : Option PartyId) : s'.tour hook target = s.tour hook target := by
  rw [tour, tour, h]

namespace Aftermath

variable {h : List (Service × Agent.Call IdentityJob)}

/-- As long as the drivers are not torn down, there is nothing to say. -/
theorem of_not (hs : s.tornDown = false) (hh : (h.any fun x => x.1.tearsDown x.2) = false) :
    s.Aftermath h where
  tornDown := hs.trans hh.symm
  calls ht := absurd (hs.symm.trans ht) (by simp)
  stirs := by
    rw [messagesSince, since_of_not_any hh, sinceTearDown, since_of_not_any hs]
    rfl
  due := by simp [messagesSince, since_of_not_any hh]

/-- A message has just torn them down. -/
theorem of_torn {x : Service × Agent.Call IdentityJob} (hs : s.tornDown = true)
    (hh : (h.any fun x => x.1.tearsDown x.2) = false) (hx : x.1.tearsDown x.2 = true)
    (calls : s.sinceTearDown.filterMap Entry.driverCall? = (s.tour .teardown none).reverse)
    (stirs : s.sinceTearDown.any Entry.stirs = false) : s.Aftermath (h ++ [x]) := by
  have since : messagesSince (h ++ [x]) = [] := since_append_cons hh hx
  constructor
  case tornDown => rw [hs, List.any_append, hh, List.any_cons, hx]; rfl
  case calls => exact fun _ => by rw [calls, since, List.flatMap_nil, List.append_nil]
  case stirs => rw [stirs, since, List.any_nil]
  case due => simp [since]

/-- A move after the drivers were torn down. The list of drivers is closed, so that those who were
torn down are still all drivers. -/
theorem moved_after {g₀ : Graph} {h? : Option (Service × Agent.Call IdentityJob)}
    (hs : s.Aftermath h) (hi : s.InOrder h) (hc : Coherent g₀ .free s.jobs s) (hm : s.Moved h? s')
    (ht : s.tornDown = true) : s'.Aftermath (h ++ h?.toList) := by
  have hi' := hi.moved hm
  have down : (h.any fun x => x.1.tearsDown x.2) = true := hs.tornDown.symm.trans ht
  have since : messagesSince (h ++ h?.toList) = messagesSince h ++ h?.toList := since_append down
  have next : ∀ x ∈ h?, x.1.agent.status ≠ .running ∧ x.2 ≠ .start ∧ x.2.isStop = false := by
    cases hm with
    | handled htakes => simpa using hi.after_tearDown down htakes
    | works | installed | released | abandoned | exited => simp
  obtain ⟨new, hj, hany⟩ := hm.stirs hc fun x hx => (next x hx).1
  have calls : s'.driverCalls = s.driverCalls ++ h?.toList.flatMap fun x => x.1.dueCalls x.2 := by
    rw [hi'.calls, hi.calls, List.flatMap_append]
  have entries := sinceTearDown_of_journal hj ht
  constructor
  case tornDown => rw [hm.tornDown, hs.tornDown, List.any_append]
  case calls =>
    intro _
    have drivers : s'.registry.drivers = s.registry.drivers := by
      obtain ⟨x, hx, -⟩ := List.any_eq_true.mp down
      exact (hi'.drivers x (List.mem_append_left _ hx)).symm.trans (hi.drivers x hx)
    rw [entries, List.filterMap_append, hs.calls ht, filterMap_driverCall?_of_journal hj calls,
      tour_congr drivers, since, List.flatMap_append, List.append_assoc]
  case stirs =>
    rw [entries, List.any_append, List.any_reverse, hs.stirs, hany, since, List.any_append]
  case due =>
    rw [since]
    refine List.forall_mem_append.mpr ⟨hs.due, fun x hx => ?_⟩
    obtain ⟨hrun, hstart, hstop⟩ := next x (Option.mem_toList.mp hx)
    exact dueCalls_eq_nil hrun hstart hstop

/-- What a move adds to what has happened since. -/
theorem moved {g₀ : Graph} {h? : Option (Service × Agent.Call IdentityJob)} (hs : s.Aftermath h)
    (hi : s.InOrder h) (hc : Coherent g₀ .free s.jobs s) (hm : s.Moved h? s') :
    s'.Aftermath (h ++ h?.toList) := by
  have hi' := hi.moved hm
  have down : s'.tornDown = (h ++ h?.toList).any fun x => x.1.tearsDown x.2 := by
    rw [hm.tornDown, hs.tornDown, List.any_append]
  cases ht : s.tornDown with
  | true => exact hs.moved_after hi hc hm ht
  | false =>
    have hh := hs.tornDown.symm.trans ht
    cases ht' : s'.tornDown with
    | false => exact .of_not ht' (down.symm.trans ht')
    | true =>
      rw [ht', List.any_append, hh, Bool.false_or] at down
      cases h? with
      | none => cases down
      | some x =>
        have hx : x.1.tearsDown x.2 = true := by simpa using down.symm
        obtain ⟨calls, stirs⟩ := hm.sinceTearDown hx ht
        have drivers := hi'.drivers x (List.mem_append_right _ List.mem_cons_self)
        rw [tour_congr drivers] at calls
        exact .of_torn ht' hh hx calls stirs

end Aftermath

theorem aftermath_play {c : IdentityConfiguration} {place : DataPlace} (h : new c place = .ok s)
    (moves : List Move) : (s.play moves).Aftermath (s.handled moves) := by
  obtain ⟨r, -, blank⟩ := blank_of_new h
  induction moves using List.reverseRecOn with
  | nil => exact .of_not (by simp [tornDown, play, blank.journal]) rfl
  | append_singleton moves m ih =>
    have coherent := coherent_play h moves
    rw [play_concat, handled_concat]
    exact ih.moved (inOrder_play blank moves) coherent (moved_move coherent.orderly m)

/-- **When the shutdown is final.** After any history of a new service, what has happened since the
drivers were torn down is the calls of that pass and nothing that stirs the parties, exactly if no
message was handled since that destroys a party. -/
theorem shutdownFinal_iff {c : IdentityConfiguration} {place : DataPlace} {s₀ : Service}
    (h : new c place = .ok s₀) (moves : List Move) :
    (s₀.play moves).ShutdownFinal ↔
      ∀ x ∈ messagesSince (s₀.handled moves), x.1.destroys x.2 = false := by
  have aftermath := aftermath_play h moves
  constructor
  · intro hfinal x hx
    have hany : (s₀.play moves).sinceTearDown.any Entry.stirs = false :=
      List.any_eq_false.mpr fun e he => by simp [hfinal.still e he]
    rw [aftermath.stirs] at hany
    simpa using List.any_eq_false.mp hany x hx
  · intro hno
    constructor
    case calls =>
      intro ht
      have none : (messagesSince (s₀.handled moves)).flatMap (fun x => x.1.dueCalls x.2) = [] :=
        List.flatMap_eq_nil_iff.mpr fun x hx => aftermath.due x hx (hno x hx)
      rw [aftermath.calls ht, none, List.append_nil]
    case still =>
      have hany : (s₀.play moves).sinceTearDown.any Entry.stirs = false := by
        rw [aftermath.stirs]
        exact List.any_eq_false.mpr fun x hx => by simp [hno x hx]
      intro e he
      simpa using List.any_eq_false.mp hany e he

/-- A remote party is added, and its destruction is asked for between the request to stop and the
time when the agent leaves. -/
def overtaken : List Move :=
  [.register "AlphaFeatureDriver" true [] fun _ _ => .finish .succeeded, .request .start, .deliver,
    .request (.add .root .any { PartySection.blank with partyName := some "R" }), .deliver,
    .request .stop, .request (.destroy 0), .deliver, .deliver, .deliver]

/-- The stop is handled before the destruction, and the destruction before the agent leaves. -/
theorem shutdownFinal_iff_of_overtaken :
    ∃ s₀, new .default ⟨"/home", none⟩ = .ok s₀ ∧
      ((s₀.play overtaken).ShutdownFinal ↔
        ∀ x ∈ messagesSince (s₀.handled overtaken), x.1.destroys x.2 = false) := by
  obtain ⟨s₀, h⟩ := exists_new_default
  exact ⟨s₀, h, shutdownFinal_iff h _⟩

/-- The party is taken out of the graph after the drivers were torn down. -/
theorem not_shutdownFinal_overtaken :
    ∃ s₀, new .default ⟨"/home", none⟩ = .ok s₀ ∧ ¬ (s₀.play overtaken).ShutdownFinal := by
  obtain ⟨s₀, h⟩ := exists_new_default
  have hstirs : (new .default ⟨"/home", none⟩).toOption.map (fun s =>
      (s.play overtaken).sinceTearDown.any Entry.stirs) = some true := by
    decide +kernel
  rw [h] at hstirs
  refine ⟨s₀, h, fun hfinal => ?_⟩
  obtain ⟨e, he, hstir⟩ := List.any_eq_true.mp (Option.some.inj hstirs)
  exact absurd ((hfinal.still e he).symm.trans hstir) (by simp)

end Service

end PartyGraph
