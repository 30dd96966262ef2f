import PartyGraph.Proofs.Service.Departures

/-!
# Properties that hold throughout passes

`Service.Steady` does not tell a pass from other things that concern nobody, so it is of no use for
what holds only because of a pass: that the owner of a batch was looked at before its drivers were
called, or that a party was shown to the drivers. Here the property also depends on the pass that is
under way, and what is known when a pass begins is an obligation of its own.

While a pass is under way its job is not in line any more: what is to be remembered of the job is
part of the property for that pass. The service that the handler found is known, too, so that the
pass as a whole can be spoken of.

What is known of the messages that are handled is a parameter, `H`. With it a property can say of a
pass that it was begun for one of the messages of the history.

## Main definitions

* `Service.Underway`: the pass that is under way.
* `Service.Footing`: what all such properties may rely on.
* `Service.Lasting`: what it takes for a property to hold throughout.

## Main results

* `Service.Lasting.handled`, `Service.Lasting.moved`: messages and moves.
* `Service.Lasting.play_new`: any history.
-/

namespace PartyGraph

/-- Whether an entry neither changes the graph nor tells of parties nor begins a pass for some. -/
def Entry.IsPlain : Entry → Prop
  | .handling _ | .called _ _ _ | .initialized _ | .answered _ _ => True
  | .passBegun .setup _ | .passBegun .teardown _ => True
  | .told .heartbeat (.beat _) => True
  | _ => False

theorem Entry.IsPlain.act {e : Entry} (h : e.IsPlain) (g : Graph) : e.act g = g := by
  cases e <;> first | rfl | cases h

theorem Entry.IsPlain.event?_eq_none {e : Entry} (h : e.IsPlain) : e.event? = none := by
  cases e with
  | told channel signal =>
    cases signal with
    | beat count => cases channel <;> rfl
    | party e => cases channel <;> cases h
  | _ => rfl

namespace Service

variable {s s' : Service} {g₀ : Graph} {line : List IdentityJob}

/-- The pass for a job that is under way, with the service that the handler of the job found. -/
inductive Underway where
  | nothing
  | adding (found : Service) (b : Batch)
  | destroying (found : Service) (id : PartyId)

/-- The stage that the agent is at. -/
def Underway.stage : Underway → Stage
  | nothing => .free
  | adding _ b => .busy (.add b)
  | destroying _ id => .busy (.destroy id)

/-- All fits together, and who is gone is where such parties are. -/
def Footing (g₀ : Graph) : Stage → List IdentityJob → Service → Prop :=
  Held g₀ fun stage line s => s.Departures g₀ (stage.pending ++ line)

/-- What it takes for `P` to hold throughout a history that begins with the graph `g₀`, when `H` is
known of the messages that are handled. -/
structure Lasting (g₀ : Graph) (H : Service → Agent.Call IdentityJob → Prop)
    (P : Underway → List IdentityJob → Service → Prop) : Prop where
  same {u : Underway} {line : List IdentityJob} {s s' : Service} : P u line s →
    s'.graph = s.graph → s'.journal = s.journal → P u line s'
  noted {u : Underway} {line : List IdentityJob} {s : Service} {e : Entry} : P u line s →
    e.IsPlain → P u line (s.record e)
  asked {u : Underway} {s s' : Service} : Footing g₀ u.stage s.jobs s → P u s.jobs s →
    s.Asked s' → P u s'.jobs s'
  /-- Nothing comes of a job. -/
  left {j : IdentityJob} {line : List IdentityJob} {s : Service} :
    P .nothing (j :: line) s → P .nothing line s
  /-- A pass for an addition begins. -/
  adding {b : Batch} {line : List IdentityJob} {s : Service} :
    Footing g₀ (.busy (.add b)) line s → P .nothing (.add b :: line) s → H s (.job (.add b)) →
    s.batchRefusal b = none →
    P (.adding s b) line (s.record (.passBegun .setupDynamic b.parties))
  failed {f : Service} {b : Batch} {line : List IdentityJob} {s : Service} :
    P (.adding f b) line s → P .nothing line s
  published {f : Service} {b : Batch} {line : List IdentityJob} {s : Service} :
    Footing g₀ (.busy (.add b)) line s → P (.adding f b) line s → (f.addBatch b).1 = .ok () →
    s.graph.Room (b.family s.graph) → P .nothing line (s.publish b)
  /-- A pass for a destruction begins. -/
  destroying {id : PartyId} {line : List IdentityJob} {s : Service} :
    Footing g₀ (.busy (.destroy id)) line s → P .nothing (.destroy id :: line) s →
    H s (.job (.destroy id)) → s.graph.isGone id = false →
    P (.destroying s id) line (s.record (.passBegun .teardownDynamic [id]))
  removed {f : Service} {id : PartyId} {p : OwnedParty} {line : List IdentityJob} {s : Service} :
    Footing g₀ (.busy (.destroy id)) line s → P (.destroying f id) line s →
    s.graph.party? id = some p → s.graph.isGone id = false → P .nothing line (s.removeParty id p)

namespace Footing

variable {stage : Stage}

/-- What matters is the jobs in line, whether or not one of them is being handled. -/
theorem restage {line' : List IdentityJob} (h : Footing g₀ stage line s) (stage' : Stage)
    (hline : stage'.pending ++ line' = stage.pending ++ line) : Footing g₀ stage' line' s :=
  ⟨h.1.restage stage' hline, h.2.mono fun _ hb => hline ▸ hb⟩

theorem begun {hook : Hook} {ids : List PartyId} (h : Footing g₀ stage line s) :
    Footing g₀ stage line (s.record (.passBegun hook ids)) :=
  (steady_departures g₀).held_aside h (h.1.orderly.record _) (aside_record s trivial)

theorem works {calls : List DriverCall} (h : Footing g₀ stage s.jobs s) (hw : s.Works calls s') :
    Footing g₀ stage s'.jobs s' :=
  (steady_departures g₀).held_works h hw

end Footing

namespace Lasting

variable {H : Service → Agent.Call IdentityJob → Prop}
  {P : Underway → List IdentityJob → Service → Prop} {u : Underway}

/-- What drivers do. -/
theorem works (hP : Lasting g₀ H P) {calls : List DriverCall} (hf : Footing g₀ u.stage s.jobs s)
    (h : P u s.jobs s) (hw : s.Works calls s') : P u s'.jobs s' := by
  refine (hw.induction (P := fun t => Footing g₀ u.stage t.jobs t ∧ P u t.jobs t)
    (fun t t' ht ha => ?_) (fun t c ht => ?_) ⟨hf, h⟩).2
  · exact ⟨ht.1.works (.ask .refl ha), hP.asked ht.1 ht.2 ha⟩
  · exact ⟨ht.1.works (.call .refl c), hP.noted ht.2 trivial⟩

/-- A mailbox is dropped. -/
theorem emptied (hP : Lasting g₀ H P) {jobs : List IdentityJob} (h : P .nothing jobs s) :
    P .nothing [] (s.answerDropped jobs) := by
  induction jobs generalizing s with
  | nil => exact h
  | cons j jobs ih =>
    cases j with
    | add b =>
      have left : P .nothing jobs s := hP.left h
      exact ih (hP.noted (e := .answered b.ticket (.error .agentStopped)) left trivial)
    | destroy id => exact ih (hP.left h)

/-- A pass that concerns no job. -/
theorem toured (hP : Lasting g₀ H P) {hook : Hook} {ids : List PartyId} {calls : List DriverCall}
    (hf : Footing g₀ .free s.jobs s) (h : P .nothing s.jobs s)
    (hw : (s.record (.passBegun hook ids)).Works calls s')
    (plain : (Entry.passBegun hook ids).IsPlain) : P .nothing s'.jobs s' :=
  hP.works (s := s.record (.passBegun hook ids)) hf.begun (hP.noted h plain) hw

/-- A batch is put into the graph, and drivers go on with what they do. -/
theorem added (hP : Lasting g₀ H P) {b : Batch} {s₁ s₂ : Service}
    (hf : Footing g₀ (.busy (.add b)) s.jobs s) (h : P .nothing (.add b :: s.jobs) s)
    (hH : H s (.job (.add b))) (hr : s.batchRefusal b = none) (hb : s.addBatch b = (.ok (), s₂))
    (works : (s.record (.passBegun .setupDynamic b.parties)).Works (s.batchTour b) s₁)
    (after : (s₁.publish b).Works [] s₂) : P .nothing s₂.jobs s₂ := by
  have hf₁ : Footing g₀ (.busy (.add b)) s₁.jobs s₁ :=
    Footing.works (s := s.record (.passBegun .setupDynamic b.parties)) hf.begun works
  have h₁ : P (.adding s b) s₁.jobs s₁ :=
    hP.works (s := s.record (.passBegun .setupDynamic b.parties)) (u := .adding s b) hf.begun
      (hP.adding hf h hH hr) works
  have hroom := hf.1.room_family hr works
  have hjobs := (noted_publish s₁ b).jobs
  have settled : Footing g₀ (.settled b) s₁.jobs (s₁.publish b) :=
    ⟨hf₁.1.published hroom, (steady_departures g₀).published hf₁.1 hf₁.2 hroom⟩
  have hf₂ : Footing g₀ .free (s₁.publish b).jobs (s₁.publish b) := by
    rw [hjobs]
    exact settled.restage .free rfl
  have h₂ : P .nothing (s₁.publish b).jobs (s₁.publish b) := by
    rw [hjobs]
    exact hP.published hf₁ h₁ (by rw [hb]) hroom
  exact hP.works (u := .nothing) hf₂ h₂ after

theorem handled (hP : Lasting g₀ H P) {c : Agent.Call IdentityJob}
    (hf : Footing g₀ (.ofCall c) s.jobs s) (h : P .nothing (c.job?.toList ++ s.jobs) s)
    (hH : H s c) (hh : s.Handled c s') : P .nothing s'.jobs s' := by
  cases hh with
  | idle hd hc =>
    cases c with
    | job j => exact hP.left h
    | start | heartbeat | stop => exact h
  | @started s₁ _ works i =>
    have h₁ := hP.toured hf h works trivial
    have same : P .nothing s₁.jobs { s₁ with initialization := i } := hP.same h₁ rfl rfl
    exact hP.noted (e := .initialized i) same trivial
  | beat _ count => exact hP.noted (e := .told .heartbeat (.beat count)) h trivial
  | stopped _ works => exact hP.toured hf h works trivial
  | orphaned _ b =>
    exact hP.noted (e := .answered b.ticket (.error .agentStopped)) (hP.left h) trivial
  | @refused b e _ hr =>
    exact hP.noted (e := .answered b.ticket (.error e)) (hP.left h) trivial
  | @failed b e s₁ _ hr _ works =>
    have h₁ : P (.adding s b) s₁.jobs s₁ :=
      hP.works (s := s.record (.passBegun .setupDynamic b.parties)) (u := .adding s b) hf.begun
        (hP.adding hf h hH hr) works
    exact hP.noted (e := .answered b.ticket (.error e)) (hP.failed h₁) trivial
  | @added b s₁ s₂ _ hr hb works after =>
    have h₂ := hP.added hf h hH hr hb works after
    exact hP.noted (e := .answered b.ticket (.ok ())) h₂ trivial
  | gone => exact hP.left h
  | missing _ _ works hp =>
    exact absurd hp (hf.1.party?_ne_none (s := s) works.graph_extends)
  | @destroyed id s₁ p _ hg works hp =>
    have h₁ : P (.destroying s id) s₁.jobs s₁ :=
      hP.works (s := s.record (.passBegun .teardownDynamic [id])) (u := .destroying s id) hf.begun
        (hP.destroying hf h hH hg) works
    have hf₁ : Footing g₀ (.busy (.destroy id)) s₁.jobs s₁ :=
      Footing.works (s := s.record (.passBegun .teardownDynamic [id])) hf.begun works
    rw [(noted_removeParty s₁ id p).jobs]
    exact hP.removed hf₁ h₁ hp ((works.isGone id).trans hg)

/-- What a move comes to. -/
theorem moved (hP : Lasting g₀ H P) {h? : Option (Service × Agent.Call IdentityJob)}
    (hf : Footing g₀ .free s.jobs s) (h : P .nothing s.jobs s) (hH : ∀ x ∈ h?.toList, H x.1 x.2)
    (hm : s.Moved h? s') : P .nothing s'.jobs s' := by
  -- An agent that ends drops the mailbox, whatever else becomes of it.
  have ended (gone : Bool) (a : Agent IdentityJob) (ha : a.jobs = []) :
      P .nothing ({ s with dropped := gone, agent := a }.answerDropped s.jobs).jobs
        ({ s with dropped := gone, agent := a }.answerDropped s.jobs) := by
    have same : P .nothing s.jobs { s with dropped := gone, agent := a } := hP.same h rfl rfl
    have hempty : jobs { s with dropped := gone, agent := a } = [] := ha
    rw [(noted_answerDropped _ _).jobs, hempty]
    exact hP.emptied same
  cases hm with
  | works hw => exact hP.works (u := .nothing) hf h hw
  | @installed s₁ hw hd d =>
    have h₁ : P .nothing s₁.jobs s₁ := hP.works (u := .nothing) hf h hw
    exact hP.same h₁ rfl rfl
  | released hd hl =>
    have hjobs : s.agent.release.jobs = s.jobs := (Agent.undisturbed_release hl).jobs
    show P .nothing s.agent.release.jobs _
    rw [hjobs]
    exact hP.same h rfl rfl
  | abandoned hd hl => exact ended true _ (Agent.release_of_absent hl).2.1
  | exited he => exact ended s.dropped _ he.jobs
  | @handled c a s₁ ht hc =>
    have hline : s.jobs = c.job?.toList ++ a.jobs := ht.jobs
    have hf₂ : Footing g₀ (.ofCall c) a.jobs ({ s with agent := a }.record (.handling c)) := by
      have hrecord : (s.record (.handling c)).Departures g₀ ((Stage.ofCall c).pending ++ a.jobs) :=
        (steady_departures g₀).taken (hline ▸ hf.2)
      exact ⟨hf.1.taken ht, (steady_departures g₀).aside hrecord (.of_eq rfl rfl rfl)⟩
    have h₂ : P .nothing (c.job?.toList ++ a.jobs) ({ s with agent := a }.record (.handling c)) :=
      hline ▸ hP.same (hP.noted (e := .handling c) h trivial) rfl rfl
    have h₃ := hP.handled hf₂ h₂ (hH _ (List.mem_singleton.mpr rfl)) hc
    show P .nothing s₁.agent.finish.jobs _
    rw [Agent.jobs_finish]
    exact hP.same h₃ rfl rfl

/-- What lasts and holds at the beginning holds after any history of a new service. -/
theorem play_new {c : IdentityConfiguration} {place : DataPlace} (hP : Lasting s.graph H P)
    (hnew : new c place = .ok s) (hs : P .nothing s.jobs s) (moves : List Move)
    (hH : ∀ x ∈ s.handled moves, H x.1 x.2) : P .nothing (s.play moves).jobs (s.play moves) := by
  induction moves using List.reverseRecOn with
  | nil => exact hs
  | append_singleton moves m ih =>
    rw [handled_concat, List.forall_mem_append] at hH
    have hf : Footing s.graph .free (s.play moves).jobs (s.play moves) :=
      ⟨coherent_play hnew moves, departures_play hnew moves⟩
    rw [play_concat]
    exact hP.moved hf (ih hH.1) hH.2 (moved_move hf.1.orderly m)

end Lasting

end Service

end PartyGraph
