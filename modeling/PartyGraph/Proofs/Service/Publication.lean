import Mathlib.Data.List.Basic
import PartyGraph.Proofs.Service.Passes
import PartyGraph.Proofs.Trampoline.Course

/-!
# Publication comes after the handlers

The pass of an addition puts its batch into the graph by a success handler. Drivers register success
handlers too, in their calls and in the actions that follow these, and none of theirs must come
later. What decides is the round. When the phase of success begins, the queue holds the job that
arranges the publication, and behind it all handlers registered in the phase of actions. All of
these are one round. The publication, which the first of them registers, is the first job of the
next one, and stands before all that the others have registered.

So the handlers of a pass are performed in the order

> arrangement, handlers registered by actions, publication, handlers registered by handlers

(`Service.performedIn_success`). Drivers can put nothing else between, because what they register
are deeds, and no deed arranges or publishes anything. Whether a handler fails makes no difference:
all of a round are performed, and failures of handlers do not count.

## Main definitions

* `Service.PublishesLate`: how the pass of an addition deals with its batch.

## Main results

* `Service.performedIn_success`: the order of the handlers of a pass in which no action failed.
* `Service.publishesLate`: every pass of an addition publishes late, whatever drivers do.
-/

namespace PartyGraph

/-! ### What the jobs of a pass register -/

namespace PassJob

theorem IsDeed.not_isArrangement {j : PassJob} (h : j.IsDeed) : ¬ j.IsArrangement := by
  cases j <;> first | exact id | cases h

variable (drivers : List Driver)

/-- The job that arranges the publication is never registered by any other. -/
theorem script_within_not_isArrangement (j : PassJob) :
    (script drivers j).Within (fun _ i => ¬ i.IsArrangement) fun _ => True := by
  cases j with
  | arrange b =>
    refine ⟨id, fun answer => ?_⟩
    cases answer <;> trivial
  | call | deed | publish =>
    exact (script_within_deeds drivers id).mono (fun _ _ h => h.not_isArrangement)
      fun _ _ => trivial

end PassJob

namespace Run

variable {drivers : List Driver} {r : Run PassJob Desk} {e : Performed PassJob}

/-- In the phase of success the publication is registered, and nothing else. -/
theorem Scripted.accepted_arrange (h : r.Scripted (PassJob.system drivers)) (he : e ∈ r.performed)
    (hp : e.phase = .success) {b : Batch} (hjob : e.job = .arrange b) :
    e.accepted .success = [.publish b] := by
  obtain ⟨t, w, hphase, -, hregistrations⟩ := h e he
  have hreg : t.register .success (PassJob.publish b)
      = .ok (t.withQueue .success (t.queue .success ++ [.publish b])) :=
    if_pos (by rw [hphase, hp]; rfl)
  rw [Performed.accepted, hregistrations, hjob]
  simp [PassJob.system, PassJob.script, Script.run, hreg, Script.Result.after,
    Registration.accepted, Registration.isAccepted]

end Run

namespace Service

variable (s : Service) (b : Batch)

/-- The trampoline with which the pass of an addition begins. -/
def setUpTrampoline : Trampoline PassJob where
  phase := .actions
  claimed := true
  actions := b.parties.flatMap fun id => s.callsFor .setupDynamic (some id)
  success := [.arrange b]
  error := []
  closing := []

theorem settles_setUpRun : Run.Settles .all (s.setUpTrampoline b) (s.setUpRun b) :=
  Run.settles_toEnd rfl _ _

theorem scripted_setUpRun :
    (s.setUpRun b).Scripted (PassJob.system s.registry.drivers) :=
  (Run.toEnd_induction (fun _ hr _ => hr.step) _ (Run.Scripted.start _ _)).1

/-! ### The order of the handlers -/

/-- The success handlers that were accepted in the phase of actions. -/
def handlersOfActions : List PassJob :=
  ((s.setUpRun b).entriesIn .actions).flatMap (Performed.accepted .success)

/-- The success handlers that were accepted from success handlers, the publication apart. -/
def handlersOfHandlers : List PassJob :=
  ((s.setUpRun b).entriesIn .success).tail.flatMap (Performed.accepted .success)

variable {s b}

theorem not_isArrangement_of_accepted {k : JobKind} {j : PassJob}
    (hj : j ∈ (s.setUpRun b).accepted k) : ¬ j.IsArrangement := by
  obtain ⟨e, he, hj⟩ := List.mem_flatMap.mp hj
  exact (s.scripted_setUpRun b).accepted he
    (PassJob.script_within_not_isArrangement s.registry.drivers e.job) k j hj

theorem isDeed_of_accepted {e : Performed PassJob} (he : e ∈ (s.setUpRun b).performed)
    (hjob : ¬ e.job.IsArrangement) {k : JobKind} {j : PassJob} (hj : j ∈ e.accepted k) :
    j.IsDeed :=
  (s.scripted_setUpRun b).accepted he (PassJob.script_within_deeds s.registry.drivers hjob) k j hj

theorem isDeed_of_mem_handlersOfActions : ∀ j ∈ s.handlersOfActions b, j.IsDeed := by
  intro j hj
  obtain ⟨e, he, hj⟩ := List.mem_flatMap.mp hj
  have hjob : e.job ∈ (s.setUpRun b).performedIn .actions := List.mem_map_of_mem he
  rw [(s.settles_setUpRun b).actions (.inl rfl)] at hjob
  refine isDeed_of_accepted (List.mem_of_mem_filter he) (fun harrange => ?_) hj
  rcases List.mem_append.mp hjob with hcall | haccepted
  · obtain ⟨id, -, hcall⟩ := List.mem_flatMap.mp hcall
    obtain ⟨position, -, hcall⟩ := List.mem_map.mp hcall
    rw [← hcall] at harrange
    exact harrange
  · exact not_isArrangement_of_accepted haccepted harrange

/-- What is accepted for the phase of success, in order. -/
theorem accepted_success : (s.setUpRun b).accepted .success
    = s.handlersOfActions b
      ++ ((s.setUpRun b).entriesIn .success).flatMap (Performed.accepted .success) := by
  have hseq := s.sequenced_setUpRun b
  refine Run.flatMap_eq_of_ordered hseq.ordered fun e he hactions hsuccess => ?_
  refine Performed.accepted_eq_nil (hseq.refusals e he) ?_
  cases hp : e.phase <;> first | rfl | exact absurd hp hactions | exact absurd hp hsuccess

/-- The first handler is the arrangement. -/
theorem exists_entriesIn_success (hf : (s.setUpRun b).failedIn .actions = false) :
    ∃ e rest, (s.setUpRun b).entriesIn .success = e :: rest ∧ e.job = .arrange b ∧
      rest.map (·.job) = (s.setUpRun b).accepted .success := by
  have hperformed := (s.settles_setUpRun b).success
  rw [hf, if_neg Bool.false_ne_true] at hperformed
  obtain ⟨e, rest, hentries, hjob, hrest⟩ := List.map_eq_cons_iff.mp hperformed
  exact ⟨e, rest, hentries, hjob, hrest⟩

/-- **The handlers of a pass in which no action failed**, in the order in which they are
performed. -/
theorem performedIn_success (hf : (s.setUpRun b).failedIn .actions = false) :
    (s.setUpRun b).performedIn .success
      = (.arrange b :: s.handlersOfActions b) ++ .publish b :: s.handlersOfHandlers b := by
  obtain ⟨e, rest, hentries, hjob, hrest⟩ := exists_entriesIn_success hf
  have he : e ∈ (s.setUpRun b).entriesIn .success := by rw [hentries]; exact List.mem_cons_self
  have hpublish : e.accepted .success = [.publish b] :=
    (s.scripted_setUpRun b).accepted_arrange (List.mem_of_mem_filter he)
      (of_decide_eq_true (List.mem_filter.mp he).2) hjob
  calc (s.setUpRun b).performedIn .success
      = ((s.setUpRun b).entriesIn .success).map (·.job) := rfl
    _ = .arrange b :: (s.setUpRun b).accepted .success := by
        rw [hentries, List.map_cons, hjob, hrest]
    _ = .arrange b :: (s.handlersOfActions b
          ++ .publish b :: rest.flatMap (Performed.accepted .success)) := by
        rw [accepted_success, hentries, List.flatMap_cons, hpublish, List.singleton_append]
    _ = (.arrange b :: s.handlersOfActions b) ++ .publish b :: s.handlersOfHandlers b := by
        rw [handlersOfHandlers, hentries, List.tail_cons, List.cons_append]

theorem isDeed_of_mem_handlersOfHandlers (hf : (s.setUpRun b).failedIn .actions = false) :
    ∀ j ∈ s.handlersOfHandlers b, j.IsDeed := by
  intro j hj
  obtain ⟨first, rest, hentries, -, hrest⟩ := exists_entriesIn_success hf
  rw [handlersOfHandlers, hentries, List.tail_cons] at hj
  obtain ⟨e, he, hj⟩ := List.mem_flatMap.mp hj
  have hsuccess : e ∈ (s.setUpRun b).entriesIn .success :=
    hentries ▸ List.mem_cons_of_mem _ he
  refine isDeed_of_accepted (List.mem_of_mem_filter hsuccess) ?_ hj
  exact not_isArrangement_of_accepted (hrest ▸ List.mem_map_of_mem he)

/-! ### Whole passes -/

/-- How the pass of an addition deals with its batch, whatever drivers do in it. -/
structure PublishesLate (s : Service) (b : Batch) : Prop where
  /-- The actions are the calls of the drivers and all actions accepted on the way. -/
  actions : (s.setUpRun b).performedIn .actions
    = (b.parties.flatMap fun id => s.callsFor .setupDynamic (some id))
      ++ (s.setUpRun b).accepted .action
  /-- The batch is put into the graph at most once, and nothing else is. -/
  once : (s.setUpRun b).performed.countP (·.job.isPublication) ≤ 1
  only : ∀ e ∈ (s.setUpRun b).performed, e.job.isPublication = true → e.job = .publish b
  /-- It is put there exactly if no action failed. -/
  published_iff : (∃ e ∈ (s.setUpRun b).performed, e.job = .publish b) ↔
    ∀ e ∈ (s.setUpRun b).performed, e.phase = .actions → e.failure = none
  /-- Exactly then the addition succeeds. -/
  succeeds_iff : (s.setUpDynamic b).1 = .ok () ↔
    ∃ e ∈ (s.setUpRun b).performed, e.job = .publish b
  /-- By then all success handlers accepted in the phase of actions have been performed, each once,
  whether they failed or not. -/
  before : ∀ before e after, (s.setUpRun b).performed = before ++ e :: after →
    e.job = .publish b →
    (before.filter (·.phase = .success)).map (·.job) = .arrange b :: s.handlersOfActions b
  /-- After that come only those that success handlers have registered. -/
  after : ∀ before e after, (s.setUpRun b).performed = before ++ e :: after →
    e.job = .publish b →
    (after.filter (·.phase = .success)).map (·.job) = s.handlersOfHandlers b
  /-- No error handler is performed then. -/
  unerring : ∀ e ∈ (s.setUpRun b).performed, e.job = .publish b →
    ∀ e' ∈ (s.setUpRun b).performed, e'.phase ≠ .error

theorem publish_notMem (hf : (s.setUpRun b).failedIn .actions = false) :
    PassJob.publish b ∉ PassJob.arrange b :: s.handlersOfActions b ∧
      PassJob.publish b ∉ s.handlersOfHandlers b := by
  refine ⟨fun hmem => ?_, fun hmem => isDeed_of_mem_handlersOfHandlers hf _ hmem⟩
  rcases List.mem_cons.mp hmem with heq | hmem
  · cases heq
  · exact isDeed_of_mem_handlersOfActions _ hmem

/-- The publication has all other handlers before it that were accepted from actions, and behind it
those that were accepted from handlers. -/
theorem handlers_of_eq_append {before after : List (Performed PassJob)} {e : Performed PassJob}
    (hlog : (s.setUpRun b).performed = before ++ e :: after) (hjob : e.job = .publish b) :
    (before.filter (·.phase = .success)).map (·.job) = .arrange b :: s.handlersOfActions b ∧
      (after.filter (·.phase = .success)).map (·.job) = s.handlersOfHandlers b := by
  obtain ⟨hphase, hf⟩ := failedIn_of_isPublication (s := s) (b := b) (e := e)
    (by rw [hlog]; simp) (by rw [hjob]; rfl)
  have hsplit : (s.setUpRun b).performedIn .success
      = (before.filter (·.phase = .success)).map (·.job)
        ++ .publish b :: (after.filter (·.phase = .success)).map (·.job) := by
    rw [Run.performedIn, hlog, List.filter_append, List.filter_cons_of_pos (by simp [hphase]),
      List.map_append, List.map_cons, hjob]
  obtain ⟨hbefore, hafter⟩ := publish_notMem hf
  obtain ⟨hbefore, -, hafter⟩ := (List.append_cons_inj_of_notMem hbefore hafter).mp
    ((performedIn_success hf).symm.trans hsplit)
  exact ⟨hbefore.symm, hafter.symm⟩

theorem job_eq_publish {e : Performed PassJob} (he : e ∈ (s.setUpRun b).performed)
    (hp : e.job.isPublication = true) : e.job = .publish b := by
  obtain ⟨hphase, hf⟩ := failedIn_of_isPublication he hp
  have hmem : e.job ∈ (s.setUpRun b).performedIn .success :=
    List.mem_map_of_mem (List.mem_filter.mpr ⟨he, decide_eq_true hphase⟩)
  rw [performedIn_success hf] at hmem
  rcases List.mem_append.mp hmem with hmem | hmem
  · rcases List.mem_cons.mp hmem with heq | hmem
    · rw [heq] at hp
      cases hp
    · rw [(isDeed_of_mem_handlersOfActions _ hmem).isPublication_eq_false] at hp
      cases hp
  · rcases List.mem_cons.mp hmem with heq | hmem
    · exact heq
    · rw [(isDeed_of_mem_handlersOfHandlers hf _ hmem).isPublication_eq_false] at hp
      cases hp

theorem countP_isPublication_le :
    (s.setUpRun b).performed.countP (·.job.isPublication) ≤ 1 := by
  by_cases hp : ∃ e ∈ (s.setUpRun b).performed, e.job.isPublication = true
  · obtain ⟨e, he, hp⟩ := hp
    obtain ⟨hbefore, hafter⟩ := publish_notMem (failedIn_of_isPublication he hp).2
    obtain ⟨before, after, hlog⟩ := List.append_of_mem he
    have handlers := handlers_of_eq_append hlog (job_eq_publish he hp)
    rw [← handlers.1] at hbefore
    rw [← handlers.2] at hafter
    -- Any other publication would be among the handlers on one side of this one.
    have hnone {part : List (Performed PassJob)} (hpart : ∀ x ∈ part, x ∈ (s.setUpRun b).performed)
        (hmem : .publish b ∉ (part.filter (·.phase = .success)).map (·.job)) :
        part.countP (·.job.isPublication) = 0 := by
      refine List.countP_eq_zero.mpr fun x hx hxp => hmem ?_
      rw [← job_eq_publish (hpart x hx) hxp]
      exact List.mem_map_of_mem (List.mem_filter.mpr
        ⟨hx, decide_eq_true (failedIn_of_isPublication (hpart x hx) hxp).1⟩)
    rw [hlog, List.countP_append, List.countP_cons, if_pos hp,
      hnone (fun x hx => by simp [hlog, hx]) hbefore, hnone (fun x hx => by simp [hlog, hx]) hafter]
  · have hzero : (s.setUpRun b).performed.countP (·.job.isPublication) = 0 :=
      List.countP_eq_zero.mpr fun e he hpe => hp ⟨e, he, hpe⟩
    omega

/-- The batch is put into the graph exactly if no action failed. -/
theorem exists_publish_iff : (∃ e ∈ (s.setUpRun b).performed, e.job = .publish b) ↔
    (s.setUpRun b).failedIn .actions = false := by
  constructor
  · rintro ⟨e, he, hjob⟩
    exact (failedIn_of_isPublication he (by rw [hjob]; rfl)).2
  · intro hf
    have hmem : .publish b ∈ (s.setUpRun b).performedIn .success := by
      rw [performedIn_success hf]
      exact List.mem_append_right _ List.mem_cons_self
    obtain ⟨e, he, hjob⟩ := List.mem_map.mp hmem
    exact ⟨e, List.mem_of_mem_filter he, hjob⟩

/-- **Every addition publishes late**, whatever drivers do and register. -/
theorem publishesLate (s : Service) (b : Batch) : s.PublishesLate b := by
  have hpublishes : (∃ e ∈ (s.setUpRun b).performed, e.job = .publish b) ↔
      ∃ e ∈ (s.setUpRun b).performed, e.job.isPublication = true :=
    ⟨fun ⟨e, he, hjob⟩ => ⟨e, he, by rw [hjob]; rfl⟩,
      fun ⟨e, he, hp⟩ => ⟨e, he, job_eq_publish he hp⟩⟩
  constructor
  case actions => exact (s.settles_setUpRun b).actions (.inl rfl)
  case once => exact countP_isPublication_le
  case only => exact fun e he => job_eq_publish he
  case published_iff => rw [exists_publish_iff, Run.failedIn_eq_false]
  case succeeds_iff => rw [hpublishes, setUpDynamic_eq_ok_iff]
  case before => exact fun _ _ _ hlog hjob => (handlers_of_eq_append hlog hjob).1
  case after => exact fun _ _ _ hlog hjob => (handlers_of_eq_append hlog hjob).2
  case unerring =>
    intro e he hjob e' he' hphase
    have hf := (failedIn_of_isPublication he (by rw [hjob]; rfl)).2
    have hsuits := (s.sequenced_setUpRun b).performed_suits e' he'
    rw [hphase, hf] at hsuits
    cases hsuits

end Service

end PartyGraph
