import PartyGraph.Proofs.Service.Coherence

/-!
# Properties that hold throughout a history

A property of a service that depends on its graph, its journal and the jobs in line is proved for
all histories by `Service.Steady`, which has one obligation for each sort of thing that can
happen: requests, messages taken and dropped, batches put into the graph, parties taken out of it
and outcomes answered. All else is `Service.Aside`.

The agent is not among the things that the property may depend on. So the jobs in line are an
argument of their own, which allows a mailbox to be dropped one job after the other.

## Main definitions

* `Service.Steady`: what it takes for a property to hold throughout.

## Main results

* `Service.Steady.moved`: what a move comes to.
* `Service.Steady.play_new`: the property holds after any history of a new service, and so does
  `Service.Coherent`.
* `Service.coherent_play`: the latter alone.
-/

namespace PartyGraph

namespace Service

/-- What it takes for `P` to hold throughout a history that begins with the graph `g₀`. -/
structure Steady (g₀ : Graph) (P : Stage → List IdentityJob → Service → Prop) : Prop where
  asked {stage : Stage} {s s' : Service} : Coherent g₀ stage s.jobs s → P stage s.jobs s →
    s.Asked s' → P stage s'.jobs s'
  aside {stage : Stage} {line : List IdentityJob} {s s' : Service} : P stage line s → s.Aside s' →
    P stage line s'
  /-- The agent takes a message. -/
  taken {c : Agent.Call IdentityJob} {line : List IdentityJob} {s : Service} :
    P .free (c.job?.toList ++ line) s → P (.ofCall c) line (s.record (.handling c))
  /-- A job is dropped. -/
  dropped {j : IdentityJob} {line : List IdentityJob} {s : Service} :
    P .free (j :: line) s → P .free line (s.answerDropped [j])
  /-- Nothing comes of a destruction. -/
  left {id : PartyId} {line : List IdentityJob} {s : Service} :
    P (.busy (.destroy id)) line s → P .free line s
  removed {id : PartyId} {p : OwnedParty} {line : List IdentityJob} {s : Service} :
    Coherent g₀ (.busy (.destroy id)) line s → P (.busy (.destroy id)) line s →
    s.graph.party? id = some p → s.graph.isGone id = false → P .free line (s.removeParty id p)
  failed {b : Batch} {line : List IdentityJob} {s : Service} (e : IdentityError) :
    P (.busy (.add b)) line s → P .free line (s.answer b.ticket (.error e))
  published {b : Batch} {line : List IdentityJob} {s : Service} :
    Coherent g₀ (.busy (.add b)) line s → P (.busy (.add b)) line s →
    s.graph.Room (b.family s.graph) → P (.settled b) line (s.publish b)
  succeeded {b : Batch} {line : List IdentityJob} {s : Service} :
    Coherent g₀ (.settled b) line s → P (.settled b) line s →
      P .free line (s.answer b.ticket (.ok ()))

variable {s s' : Service} {g₀ : Graph} {stage : Stage} {line : List IdentityJob}
  {P : Stage → List IdentityJob → Service → Prop}

theorem graph_answerDropped (s : Service) (jobs : List IdentityJob) :
    (s.answerDropped jobs).graph = s.graph := by
  induction jobs generalizing s with
  | nil => rfl
  | cons j jobs ih => cases j <;> exact ih _

theorem journal_answerDropped (h : s'.journal = s.journal) (jobs : List IdentityJob) :
    (s'.answerDropped jobs).journal = (s.answerDropped jobs).journal := by
  induction jobs generalizing s s' with
  | nil => exact h
  | cons j jobs ih =>
    cases j with
    | add b => exact ih (congrArg (_ :: ·) h)
    | destroy id => exact ih h

/-- What `Steady` is about: the property, and that all fits together. -/
def Held (g₀ : Graph) (P : Stage → List IdentityJob → Service → Prop) (stage : Stage)
    (line : List IdentityJob) (s : Service) : Prop :=
  Coherent g₀ stage line s ∧ P stage line s

namespace Steady

theorem held_aside (hP : Steady g₀ P) (h : Held g₀ P stage line s) (ho : s'.Orderly)
    (ha : s.Aside s') : Held g₀ P stage line s' :=
  ⟨h.1.aside ho ha, hP.aside h.2 ha⟩

theorem held_works (hP : Steady g₀ P) {calls : List DriverCall} (h : Held g₀ P stage s.jobs s)
    (hw : s.Works calls s') : Held g₀ P stage s'.jobs s' := by
  refine hw.induction (P := fun t => Held g₀ P stage t.jobs t) (fun t t' ht ha => ?_)
    (fun t c ht => ?_) h
  · exact ⟨ht.1.asked ha, hP.asked ht.1 ht.2 ha⟩
  · exact hP.held_aside ht (ht.1.orderly.record _) (aside_record t trivial)

/-- A pass that begins with an entry of its own. -/
theorem held_pass (hP : Steady g₀ P) {hook : Hook} {targets : List PartyId}
    {calls : List DriverCall} (h : Held g₀ P stage s.jobs s)
    (hw : (s.record (.passBegun hook targets)).Works calls s') : Held g₀ P stage s'.jobs s' := by
  have begun : s.Aside (s.record (.passBegun hook targets)) := aside_record s trivial
  have h₁ := hP.held_aside h (h.1.orderly.record _) begun
  exact hP.held_works (s := s.record (.passBegun hook targets)) h₁ hw

/-- A mailbox is dropped one job after the other. -/
theorem held_dropped (hP : Steady g₀ P) {jobs : List IdentityJob} (h : Held g₀ P .free jobs s) :
    Held g₀ P .free [] (s.answerDropped jobs) := by
  induction jobs generalizing s with
  | nil => exact h
  | cons j jobs ih =>
    refine ih ⟨?_, hP.dropped h.2⟩
    have left : Coherent g₀ .free jobs s := (h.1.restage (.busy j) rfl).left
    cases j with
    | add b => exact left.record rfl
    | destroy id => exact left

theorem held_handled (hP : Steady g₀ P) {c : Agent.Call IdentityJob}
    (h : Held g₀ P (.ofCall c) s.jobs s) (hh : s.Handled c s') : Held g₀ P .free s'.jobs s' := by
  cases hh with
  | idle hd hc =>
    cases c with
    | job j =>
      cases j with
      | add b => exact absurd rfl (hc b)
      | destroy id => exact ⟨h.1.left, hP.left h.2⟩
    | start | heartbeat | stop => exact h
  | @started s₁ _ works i =>
    have h₁ := hP.held_pass h works
    have ho : ({ s₁ with initialization := i }.record (.initialized i)).Orderly :=
      h₁.1.orderly.congr rfl rfl rfl rfl rfl rfl
    exact hP.held_aside h₁ ho ⟨rfl, rfl, [.initialized i], rfl, by simp [Entry.IsAside]⟩
  | beat _ count =>
    exact hP.held_aside h (h.1.orderly.record _) (aside_record s trivial)
  | stopped _ works => exact hP.held_pass h works
  | orphaned _ b | refused => exact ⟨h.1.left.record rfl, hP.failed _ h.2⟩
  | failed _ _ _ works =>
    have h₁ := hP.held_pass h works
    exact ⟨h₁.1.left.record rfl, hP.failed _ h₁.2⟩
  | @added b s₁ s₂ _ hr _ works after =>
    have h₁ := hP.held_pass h works
    have hroom := h.1.room_family hr works
    have h₂ : Held g₀ P (.settled b) (s₁.publish b).jobs (s₁.publish b) := by
      rw [(noted_publish s₁ b).jobs]
      exact ⟨h₁.1.published hroom, hP.published h₁.1 h₁.2 hroom⟩
    have h₃ := hP.held_works h₂ after
    exact ⟨(h₃.1.restage .free rfl).record rfl, hP.succeeded h₃.1 h₃.2⟩
  | gone => exact ⟨h.1.left, hP.left h.2⟩
  | missing _ _ works =>
    have h₁ := hP.held_pass h works
    exact ⟨h₁.1.left, hP.left h₁.2⟩
  | @destroyed id s₁ p _ hg works hp =>
    have h₁ := hP.held_pass h works
    rw [(noted_removeParty s₁ id p).jobs]
    exact ⟨h₁.1.removed hp, hP.removed h₁.1 h₁.2 hp ((works.isGone id).trans hg)⟩

/-- A mailbox is dropped while the agent ends. -/
theorem emptied (hP : Steady g₀ P) {gone : Bool} {a : Agent IdentityJob}
    (h : Held g₀ P .free s.jobs s)
    (ho : ({ s with dropped := gone, agent := a }.answerDropped s.jobs).Orderly)
    (ha : a.jobs = []) :
    Held g₀ P .free ({ s with dropped := gone, agent := a }.answerDropped s.jobs).jobs
      ({ s with dropped := gone, agent := a }.answerDropped s.jobs) := by
  have noted := noted_answerDropped { s with dropped := gone, agent := a } s.jobs
  have noted' := noted_answerDropped s s.jobs
  have hgraph := (graph_answerDropped { s with dropped := gone, agent := a } s.jobs).trans
    (graph_answerDropped s s.jobs).symm
  have hsame : journal { s with dropped := gone, agent := a } = s.journal := rfl
  have hjournal := journal_answerDropped hsame s.jobs
  rw [noted.jobs, show jobs { s with dropped := gone, agent := a } = [] from ha]
  exact hP.held_aside (hP.held_dropped h) ho
    (.of_eq hgraph (noted.tickets.trans noted'.tickets.symm) hjournal)

/-- What a move comes to. -/
theorem moved (hP : Steady g₀ P) {h? : Option (Service × Agent.Call IdentityJob)}
    (h : Held g₀ P .free s.jobs s) (hm : s.Moved h? s') : Held g₀ P .free s'.jobs s' := by
  have ho := hm.orderly h.1.orderly
  cases hm with
  | works hw => exact hP.held_works h hw
  | installed hw hf d =>
    have h₁ := hP.held_works h hw
    exact hP.held_aside h₁ ho (.of_eq rfl rfl rfl)
  | released hd hl =>
    have hjobs : s.agent.release.jobs = s.jobs := (Agent.undisturbed_release hl).jobs
    have h₁ := hP.held_aside h ho (.of_eq rfl rfl rfl)
    rwa [← hjobs] at h₁
  | abandoned hd hl =>
    exact hP.emptied h ho (Agent.release_of_absent hl).2.1
  | exited he => exact hP.emptied h ho he.jobs
  | @handled c a s₁ ht hc =>
    have hline : s.jobs = c.job?.toList ++ a.jobs := ht.jobs
    have h₂ : Held g₀ P (.ofCall c) a.jobs ({ s with agent := a }.record (.handling c)) := by
      have hrecord : P (.ofCall c) a.jobs (s.record (.handling c)) := hP.taken (hline ▸ h.2)
      exact ⟨h.1.taken ht, hP.aside hrecord (.of_eq rfl rfl rfl)⟩
    have h₃ := hP.held_handled h₂ hc
    have hfinish : s₁.agent.finish.jobs = s₁.jobs := Agent.jobs_finish _
    have h₄ := hP.held_aside h₃ ho (.of_eq rfl rfl rfl)
    rwa [← hfinish] at h₄

/-- The property holds after any history, and so does coherence. -/
theorem play (hP : Steady g₀ P) (h : Held g₀ P .free s.jobs s) (moves : List Move) :
    Held g₀ P .free (s.play moves).jobs (s.play moves) :=
  play_induction (P := fun t => Held g₀ P .free t.jobs t) h
    (fun _ m ht => hP.moved ht (moved_move ht.1.orderly m)) moves

/-- What is steady and holds at the beginning holds after any history of a new service. -/
theorem play_new {c : IdentityConfiguration} {place : DataPlace} (hP : Steady s.graph P)
    (h : new c place = .ok s) (hs : P .free s.jobs s) (moves : List Move) :
    Held s.graph P .free (s.play moves).jobs (s.play moves) :=
  hP.play ⟨coherent_of_new h, hs⟩ moves

end Steady

theorem steady_true (g₀ : Graph) : Steady g₀ fun _ _ _ => True := by
  constructor <;> intros <;> trivial

/-- All fits together after any history of a new service. -/
theorem coherent_play {c : IdentityConfiguration} {place : DataPlace} (h : new c place = .ok s)
    (moves : List Move) : Coherent s.graph .free (s.play moves).jobs (s.play moves) :=
  ((steady_true s.graph).play_new h trivial moves).1

end Service

end PartyGraph
