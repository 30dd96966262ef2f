import PartyGraph.Proofs.Service.Asking
import PartyGraph.Proofs.Trampoline.Accounting

/-!
# What a pass does

A pass calls all drivers in its first round, in order. After that nothing calls a driver: what
drivers register are deeds, and a deed registers only deeds. So the calls of a pass are known before
it runs, whatever drivers do in them, and all else that happens in a pass is requests.

The pass of an addition has two more jobs, of which the first registers the second. In the phase of
success the first job of the first round is the former and so the first job of the second round is
the latter, since what drivers have registered meanwhile stands behind. The four stages of such a
pass are `Setting`. It ends in one of the last two: an action failed and the batch was dropped, or
the batch was put into the graph.

## Main definitions

* `Service.tour`: the calls of all drivers for a target.
* `Run.Grown`: what performing the jobs of drivers does to a run.
* `Touring`, `Setting`: the stages of passes.

## Main results

* `Service.works_setUp`, `Service.works_tearDownDynamic`, `Service.works_tearDown`: passes without
  an addition.
* `Service.setUpDynamic_cases`: a pass of an addition.
* `Service.failedIn_setUpRun`: in one that puts parties into the graph no action has failed.
-/

namespace PartyGraph

/-! ### Publications -/

namespace Service

theorem noted_publish (s : Service) (b : Batch) : s.Noted (s.publish b) := by
  have remotes : s.Noted (b.remotes.foldl (fun s id => s.publishRemote b.owner id) s) :=
    (Noted.refl s).foldl (fun _ _ h => (h.change _).tellOfRemote _ _) _
  refine remotes.foldl (fun _ _ h => ?_) _
  exact Noted.foldl (fun _ _ h => h.tellOfRemote _ _) ((h.change _).tell _ _) _

/-- All that is noted is changes, and what is told of them. -/
theorem adds_publish {p : Entry → Prop} (changed : ∀ c, p (.changed c))
    (told : ∀ channel signal, p (.told channel signal)) (s : Service) (b : Batch) :
    s.Adds p (s.publish b) := by
  have remotes : s.Adds p (b.remotes.foldl (fun s id => s.publishRemote b.owner id) s) :=
    (Adds.refl s).foldl (fun _ _ h => (h.change (changed _)).tellOfRemote told _ _) _
  refine remotes.foldl (fun _ _ h => ?_) _
  exact Adds.foldl (fun _ _ h => h.tellOfRemote told _ _)
    ((h.change (changed _)).record (told _ _)) _

end Service

/-! ### Jobs of drivers -/

/-- The job of a call. -/
def DriverCall.job (c : DriverCall) : PassJob := .call c.position c.hook c.target

namespace PassJob

/-- Whether a job was registered by a driver. -/
def IsDeed : PassJob → Prop
  | deed _ => True
  | _ => False

theorem ofDriver_within (s : DriverScript) :
    (ofDriver s).Within (fun _ j => j.IsDeed) (fun c => ∃ c', c = .driver c') :=
  Script.within_map (fun _ _ => trivial) (fun c => ⟨c, rfl⟩) s

/-- Whether a job arranges a publication. -/
def IsArrangement : PassJob → Prop
  | arrange _ => True
  | _ => False

variable (drivers : List Driver)

/-- Only deeds are registered, except by the job that arranges the publication. -/
theorem script_within_deeds {j : PassJob} (hj : ¬ j.IsArrangement) :
    (script drivers j).Within (fun _ i => i.IsDeed) fun _ => True := by
  have driver (s : DriverScript) : (ofDriver s).Within (fun _ i => i.IsDeed) fun _ => True :=
    (ofDriver_within s).mono (fun _ _ h => h) fun _ _ => trivial
  cases j with
  | call position hook target =>
    refine ⟨trivial, fun earlier => ?_⟩
    split
    · exact driver _
    · trivial
  | deed d => exact driver d.script
  | arrange b => exact absurd trivial hj
  | publish b => exact ⟨trivial, fun _ => trivial⟩

end PassJob

/-- What drivers ask in a pass is requests. -/
theorem Desk.works_answer {s : Service} {calls : List DriverCall} (hs : s.Orderly) {d : Desk}
    (h : s.Works calls d.service) (c : DriverCommand) :
    s.Works calls (Desk.answer (.driver c) d).2.service := by
  cases c with
  | job c =>
    cases c with
    | fetch | store => exact h
    | note =>
      exact h.ask (.quiet (.of_eq rfl rfl rfl rfl rfl rfl rfl rfl id fun _ => .inl) rfl)
  | look => exact h
  | attach p type value => exact h.ask (Service.asked_attach p type value)
  | request r => exact h.ask (Service.asked_request (h.orderly hs) r)

/-! ### Performing jobs of drivers -/

namespace Run

/-- Between `r` and `r'` jobs of drivers were performed: deeds were put at the end of queues, and
nothing else happened to the run. -/
structure Grown (r r' : Run PassJob Desk) : Prop where
  phase : r'.phase = r.phase
  queue : ∀ k, ∃ new, r'.trampoline.queue k = r.trampoline.queue k ++ new ∧ ∀ j ∈ new, j.IsDeed
  published : r'.jobs.any PassJob.isPublication = r.jobs.any PassJob.isPublication

namespace Grown

variable {r r' r'' : Run PassJob Desk}

theorem refl (r : Run PassJob Desk) : Grown r r := ⟨rfl, fun _ => ⟨[], by simp⟩, rfl⟩

theorem trans (h : Grown r r') (h' : Grown r' r'') : Grown r r'' where
  phase := h'.phase.trans h.phase
  queue k := by
    obtain ⟨new, hnew, hall⟩ := h.queue k
    obtain ⟨new', hnew', hall'⟩ := h'.queue k
    refine ⟨new ++ new', by rw [hnew', hnew, List.append_assoc], fun j hj => ?_⟩
    exact (List.mem_append.mp hj).elim (hall j) (hall' j)
  published := h'.published.trans h.published

end Grown

variable {drivers : List Driver} {s : Service} {calls : List DriverCall} {r : Run PassJob Desk}

theorem grown_perform {j : PassJob} {command : PassCommand → Prop}
    (hp : j.isPublication = false)
    (hj : (PassJob.script drivers j).Within (fun _ j => j.IsDeed) command) :
    Grown r (r.perform (PassJob.system drivers) j) where
  phase := phase_perform r j
  queue k := hj.queue _ _ k
  published := by simp [hp]

theorem grown_perform_deed (d : DriverDeed) :
    Grown r (r.perform (PassJob.system drivers) (.deed d)) :=
  grown_perform rfl (PassJob.script_within_deeds drivers id)

theorem grown_perform_call (c : DriverCall) :
    Grown r (r.perform (PassJob.system drivers) c.job) :=
  grown_perform rfl (PassJob.script_within_deeds drivers id)

/-- What a driver asks, in a call or in a deed, is requests. -/
theorem works_ofDriver (hs : s.Orderly) (script : DriverScript) (t : Trampoline PassJob)
    {d : Desk} (h : s.Works calls d.service) :
    s.Works calls ((PassJob.ofDriver script).run Desk.answer t d).world.service := by
  refine (PassJob.ofDriver_within script).world (I := fun d : Desk => s.Works calls d.service)
    ?_ t h
  rintro _ ⟨c, rfl⟩ d hd
  exact Desk.works_answer hs hd c

theorem works_perform_deed (hs : s.Orderly) (h : s.Works calls r.world.service)
    (d : DriverDeed) :
    s.Works calls (r.perform (PassJob.system drivers) (.deed d)).world.service :=
  works_ofDriver hs d.script _ h

theorem works_perform_call (hs : s.Orderly) (h : s.Works calls r.world.service)
    (c : DriverCall) :
    s.Works (calls ++ [c]) (r.perform (PassJob.system drivers) c.job).world.service := by
  cases hd : drivers[c.position]? with
  | none =>
    simpa [perform, PassJob.system, DriverCall.job, PassJob.script, Script.run, Desk.answer,
      DriverCall.entry, hd] using h.call c
  | some d =>
    have asked (script : DriverScript) := works_ofDriver hs script r.trampoline
      (d := { r.world with service := r.world.service.record c.entry }) (h.call c)
    simpa [perform, PassJob.system, DriverCall.job, PassJob.script, Script.run, Desk.answer,
      DriverCall.entry, hd] using asked _

/-! ### Rounds -/

variable (drivers) in
/-- Performing deeds: only requests, and only deeds are registered. -/
theorem perform_deeds (hs : s.Orderly) (h : s.Works calls r.world.service) {js : List PassJob}
    (hjs : ∀ j ∈ js, j.IsDeed) :
    Grown r (js.foldl (perform (PassJob.system drivers)) r) ∧
      s.Works calls (js.foldl (perform (PassJob.system drivers)) r).world.service := by
  induction js generalizing r with
  | nil => exact ⟨.refl r, h⟩
  | cons j js ih =>
    cases j with
    | deed d =>
      obtain ⟨grown, works⟩ := ih (works_perform_deed hs h d) fun j hj => hjs j (by simp [hj])
      exact ⟨(grown_perform_deed d).trans grown, works⟩
    | call | arrange | publish => exact absurd (hjs _ List.mem_cons_self) id

variable (drivers) in
/-- Performing calls: the calls in order and requests in between, and only deeds are
registered. -/
theorem perform_calls (hs : s.Orderly) (h : s.Works calls r.world.service)
    (more : List DriverCall) :
    Grown r ((more.map DriverCall.job).foldl (perform (PassJob.system drivers)) r) ∧
      s.Works (calls ++ more)
        ((more.map DriverCall.job).foldl (perform (PassJob.system drivers)) r).world.service := by
  induction more generalizing r calls with
  | nil => exact ⟨.refl r, by simpa using h⟩
  | cons c more ih =>
    obtain ⟨grown, works⟩ := ih (works_perform_call hs h c)
    exact ⟨(grown_perform_call c).trans grown, by simpa using works⟩

end Run

/-! ### Stages -/

section Stages

variable {drivers : List Driver} {s : Service} {calls : List DriverCall} {b : Batch}
  {r r' : Run PassJob Desk}

/-- Whether all jobs that wait are deeds. -/
def Trampoline.OnlyDeeds (t : Trampoline PassJob) : Prop := ∀ k, ∀ j ∈ t.queue k, j.IsDeed

/-- Whether `j` is the first to wait for the phase of success, and all others that wait are
deeds. -/
structure Trampoline.Heads (t : Trampoline PassJob) (j : PassJob) : Prop where
  success : ∃ rest, t.success = j :: rest ∧ ∀ i ∈ rest, i.IsDeed
  others : ∀ k, k ≠ .success → ∀ i ∈ t.queue k, i.IsDeed

theorem Run.Grown.onlyDeeds (h : Run.Grown r r') (ht : r.trampoline.OnlyDeeds) :
    r'.trampoline.OnlyDeeds := by
  intro k j hj
  obtain ⟨new, hnew, hall⟩ := h.queue k
  rw [hnew] at hj
  exact (List.mem_append.mp hj).elim (ht k j) (hall j)

theorem Run.Grown.heads {j : PassJob} (h : Run.Grown r r') (ht : r.trampoline.Heads j) :
    r'.trampoline.Heads j where
  success := by
    obtain ⟨rest, hrest, hall⟩ := ht.success
    obtain ⟨new, hnew, hall'⟩ := h.queue .success
    refine ⟨rest ++ new, ?_, fun i hi => (List.mem_append.mp hi).elim (hall i) (hall' i)⟩
    simpa [Trampoline.queue, hrest] using hnew
  others k hk i hi := by
    obtain ⟨new, hnew, hall⟩ := h.queue k
    rw [hnew] at hi
    exact (List.mem_append.mp hi).elim (ht.others k hk i) (hall i)

/-- A pass all of whose calls have been made, as `calls` tells, and in which nothing else is to be
done for the service. `published` tells whether a batch has been put into the graph. -/
structure Touring (s : Service) (calls : List DriverCall) (published : Bool)
    (r : Run PassJob Desk) : Prop where
  deeds : r.trampoline.OnlyDeeds
  works : s.Works calls r.world.service
  published : r.jobs.any PassJob.isPublication = published

theorem Touring.step {published : Bool} (hs : s.Orderly) (h : Touring s calls published r) :
    Touring s calls published (r.step (PassJob.system drivers) .all) := by
  by_cases hround : r.round = []
  · rw [Run.step_of_round_nil hround]
    exact ⟨fun k j hj => h.deeds k j (Trampoline.mem_queue_enter hj), h.works, h.published⟩
  · rw [Run.step_of_round hround]
    have hjs : ∀ j ∈ r.round, j.IsDeed := by
      intro j hj
      obtain ⟨k, hk⟩ := Trampoline.mem_takeRound_fst hj
      exact h.deeds k j hk
    have hrest : r.trampoline.takeRound.2.OnlyDeeds := fun k j hj =>
      h.deeds k j (Trampoline.mem_queue_takeRound hj)
    obtain ⟨grown, works⟩ := Run.perform_deeds drivers
      (r := { r with trampoline := r.trampoline.takeRound.2 }) hs h.works hjs
    exact ⟨grown.onlyDeeds hrest, works, grown.published.trans h.published⟩

/-- The stages of a pass of an addition, all of whose calls have been made. -/
inductive Setting (s : Service) (calls : List DriverCall) (b : Batch) (r : Run PassJob Desk) : Prop
  /-- Actions are performed. -/
  | acting (hp : r.phase = .actions) (ht : r.trampoline.Heads (.arrange b))
    (works : s.Works calls r.world.service) (hj : r.jobs.any PassJob.isPublication = false)
  /-- No action failed, and the publication is about to be registered. -/
  | arranging (hp : r.phase = .success) (ht : r.trampoline.Heads (.arrange b))
    (works : s.Works calls r.world.service) (hj : r.jobs.any PassJob.isPublication = false)
  /-- The publication is registered, and stands first. -/
  | publishing (hp : r.phase = .success) (ht : r.trampoline.Heads (.publish b))
    (works : s.Works calls r.world.service) (hj : r.jobs.any PassJob.isPublication = false)
  /-- An action failed. -/
  | failed (h : Touring s calls false r)
  /-- The batch has been put into the graph, and only requests came after it. -/
  | published {s₁ : Service} (works : s.Works calls s₁)
    (h : Touring (s₁.publish b) [] true r)

theorem Trampoline.Heads.enter_success {t : Trampoline PassJob} {j : PassJob} (h : t.Heads j) :
    (t.enter .success).Heads j where
  success := h.success
  others k hk i hi := h.others k hk i (Trampoline.mem_queue_enter hi)

theorem Trampoline.Heads.enter_error {t : Trampoline PassJob} {j : PassJob} (h : t.Heads j) :
    (t.enter .error).OnlyDeeds := by
  intro k i hi
  by_cases hk : k = .success
  · subst hk
    exact absurd hi List.not_mem_nil
  · exact h.others k hk i (Trampoline.mem_queue_enter hi)

/-- A round of actions leaves the first job of the phase of success in its place. -/
theorem Trampoline.Heads.takeRound_of_actions {t : Trampoline PassJob} {j : PassJob}
    (h : t.Heads j) (hp : t.phase = .actions) :
    t.takeRound.2.Heads j ∧ ∀ i ∈ t.takeRound.1, i.IsDeed := by
  have hk : t.phase.kind? = some .action := by rw [hp]; rfl
  refine ⟨⟨?_, fun k hk i hi => h.others k hk i (Trampoline.mem_queue_takeRound hi)⟩, ?_⟩
  · have hne : JobKind.success ≠ .action := by decide
    have : t.takeRound.2.success = t.success := t.queue_takeRound_of_ne hk hne
    rw [this]
    exact h.success
  · rw [t.takeRound_fst hk]
    exact h.others .action (by decide)

/-- The first round of the phase of success begins with the first job that waits for it. -/
theorem Trampoline.Heads.takeRound_of_success {t : Trampoline PassJob} {j : PassJob}
    (h : t.Heads j) (hp : t.phase = .success) :
    t.takeRound.2.OnlyDeeds ∧ t.takeRound.2.success = [] ∧
      ∃ rest, t.takeRound.1 = j :: rest ∧ ∀ i ∈ rest, i.IsDeed := by
  have hk : t.phase.kind? = some .success := by rw [hp]; rfl
  have hnil : t.takeRound.2.success = [] := t.queue_takeRound_same hk
  refine ⟨fun k i hi => ?_, hnil, ?_⟩
  · by_cases hs : k = .success
    · subst hs
      rw [Trampoline.queue, hnil] at hi
      cases hi
    · exact h.others k hs i (Trampoline.mem_queue_takeRound hi)
  · rw [t.takeRound_fst hk]
    exact h.success

variable (drivers b) in
theorem perform_arrange (hp : r.phase = .success) (hnil : r.trampoline.success = [])
    (honly : r.trampoline.OnlyDeeds) :
    (r.perform (PassJob.system drivers) (.arrange b)).phase = .success ∧
      (r.perform (PassJob.system drivers) (.arrange b)).trampoline.Heads (.publish b) ∧
      (r.perform (PassJob.system drivers) (.arrange b)).world = r.world := by
  have hp' : r.trampoline.phase = .success := hp
  have hreg : r.trampoline.register .success (PassJob.publish b)
      = .ok { r.trampoline with success := [.publish b] } := by
    rw [Trampoline.register, if_pos (by rw [hp']; rfl)]
    simp [Trampoline.withQueue, Trampoline.queue, hnil]
  have hrun : (PassJob.script drivers (.arrange b)).run Desk.answer r.trampoline r.world
      = ⟨.succeeded, { r.trampoline with success := [.publish b] }, r.world,
          [⟨.success, .publish b, none⟩]⟩ := by
    simp [PassJob.script, Script.run, hreg, Script.Result.after]
  refine ⟨(Run.phase_perform r _).trans hp, ?_, congrArg Script.Result.world hrun⟩
  have htramp : (r.perform (PassJob.system drivers) (.arrange b)).trampoline
      = { r.trampoline with success := [.publish b] } := congrArg Script.Result.trampoline hrun
  rw [htramp]
  refine ⟨⟨[], rfl, by simp⟩, fun k hk i hi => ?_⟩
  cases k with
  | success => exact absurd rfl hk
  | action => exact honly .action i hi
  | error => exact honly .error i hi
  | closing => exact honly .closing i hi

theorem Setting.step (hs : s.Orderly) (h : Setting s calls b r) :
    Setting s calls b (r.step (PassJob.system drivers) .all) := by
  cases h with
  | acting hp ht works hj =>
    by_cases hround : r.round = []
    · rw [Run.step_of_round_nil hround]
      cases hf : r.failedIn .actions with
      | true =>
        have hnext : r.nextPhase = .error := by simp [Run.nextPhase, hp, hf]
        refine .failed ⟨?_, works, hj⟩
        rw [Run.advance, hnext]
        exact ht.enter_error
      | false =>
        have hnext : r.nextPhase = .success := by simp [Run.nextPhase, hp, hf]
        refine .arranging (by simp [hnext]) ?_ works hj
        rw [Run.advance, hnext]
        exact ht.enter_success
    · rw [Run.step_of_round hround]
      obtain ⟨hrest, hjs⟩ := ht.takeRound_of_actions hp
      obtain ⟨grown, works⟩ := Run.perform_deeds drivers
        (r := { r with trampoline := r.trampoline.takeRound.2 }) hs works hjs
      exact .acting (grown.phase.trans ((Run.round_takeRound r).trans hp)) (grown.heads hrest)
        works (grown.published.trans hj)
  | arranging hp ht works hj =>
    obtain ⟨honly, hnil, rest, hround, hjs⟩ := ht.takeRound_of_success hp
    rw [Run.step_of_round (by simp [Run.round, hround]), Run.round, hround, List.foldl_cons]
    obtain ⟨hp', ht', hw⟩ := perform_arrange drivers b
      (r := { r with trampoline := r.trampoline.takeRound.2 })
      ((Run.round_takeRound r).trans hp) hnil honly
    obtain ⟨grown, works⟩ := Run.perform_deeds drivers hs (by rw [hw]; exact works) hjs
    refine .publishing (grown.phase.trans hp') (grown.heads ht') works (grown.published.trans ?_)
    rw [Run.jobs_perform, List.any_append, Bool.or_eq_false_iff]
    exact ⟨hj, rfl⟩
  | publishing hp ht works hj =>
    obtain ⟨honly, -, rest, hround, hjs⟩ := ht.takeRound_of_success hp
    rw [Run.step_of_round (by simp [Run.round, hround]), Run.round, hround, List.foldl_cons]
    obtain ⟨grown, works'⟩ := Run.perform_deeds drivers
      (r := Run.perform (PassJob.system drivers)
        { r with trampoline := r.trampoline.takeRound.2 } (.publish b))
      ((works.orderly hs).noted (Service.noted_publish _ b)) .refl hjs
    refine .published works ⟨grown.onlyDeeds honly, works', grown.published.trans ?_⟩
    rw [Run.jobs_perform, List.any_append]
    simp [PassJob.isPublication]
  | failed h => exact .failed (h.step hs)
  | published works h =>
    exact .published works (h.step ((works.orderly hs).noted (Service.noted_publish _ b)))

end Stages

/-! ### Whole passes -/

namespace Service

variable {s : Service}

/-- The calls of all drivers for a target, in the order of their registration. -/
def tour (s : Service) (hook : Hook) (target : Option PartyId) : List DriverCall :=
  (List.range s.registry.drivers.length).map fun position => ⟨position, hook, target⟩

theorem callsFor_eq (s : Service) (hook : Hook) (target : Option PartyId) :
    s.callsFor hook target = (s.tour hook target).map DriverCall.job := by
  simp [callsFor, tour, DriverCall.job]

/-- The run of a pass before its calls are made, or after them while nothing is registered. -/
def opening (s : Service) (phase : Phase) (actions success : List PassJob) :
    Run PassJob Desk :=
  Run.start { phase, claimed := true, actions, success, error := [], closing := [] }
    ⟨s, Memory.empty⟩

/-- The first step of a pass makes all its calls, or passes on to the phase of success when there is
none to make. -/
theorem opening_step (drivers : List Driver) (hs : s.Orderly) (calls : List DriverCall)
    (success : List PassJob) :
    s.Works calls ((opening s .actions (calls.map DriverCall.job) success).step
        (PassJob.system drivers) .all).world.service ∧
      ∃ p, (p = .actions ∨ p = .success) ∧
        Run.Grown (opening s p [] success)
          ((opening s .actions (calls.map DriverCall.job) success).step
            (PassJob.system drivers) .all) := by
  cases calls with
  | nil =>
    rw [Run.step_of_round_nil rfl]
    exact ⟨.refl, .success, .inr rfl, .refl _⟩
  | cons c calls =>
    rw [Run.step_of_round (r := opening s .actions ((c :: calls).map DriverCall.job) success)
      (List.cons_ne_nil _ _)]
    obtain ⟨grown, works⟩ := Run.perform_calls drivers
      (r := opening s .actions [] success) hs .refl (c :: calls)
    exact ⟨works, .actions, .inl rfl, grown⟩

/-- What holds after the first step of a pass and is kept by every step holds at its end. -/
theorem runPass_induction {s : Service} {calls : List DriverCall} {success : List PassJob}
    {P : Run PassJob Desk → Prop}
    (first : P ((opening s .actions (calls.map DriverCall.job) success).step
      (PassJob.system s.registry.drivers) .all))
    (keeps : ∀ r, P r → P (r.step (PassJob.system s.registry.drivers) .all)) :
    P (s.runPass (calls.map DriverCall.job) success) ∧
      (s.runPass (calls.map DriverCall.job) success).phase = .completed := by
  rw [runPass]
  rw [Run.toEnd_eq, dif_neg (by simp [Run.isDone, Run.phase, Run.start, Trampoline.empty])]
  obtain ⟨last, hdone⟩ := Run.toEnd_induction (fun r hr _ => keeps r hr)
    (Run.acc_stepOf PassJob.wellFounded_below .all _) first
  exact ⟨last, of_decide_eq_true hdone⟩

theorem works_runPass (hs : s.Orderly) (calls : List DriverCall) :
    s.Works calls (s.runPass (calls.map DriverCall.job) []).world.service := by
  obtain ⟨works, p, -, grown⟩ := opening_step s.registry.drivers hs calls []
  have only : (opening s p [] []).trampoline.OnlyDeeds := fun k j hj => by cases k <;> cases hj
  have first : Touring s calls false ((opening s .actions (calls.map DriverCall.job) []).step
      (PassJob.system s.registry.drivers) .all) := ⟨grown.onlyDeeds only, works, grown.published⟩
  exact (runPass_induction first fun _ ht => ht.step hs).1.works

/-- A pass of an addition ends with the batch dropped or put into the graph. -/
theorem setting_runPass (hs : s.Orderly) (calls : List DriverCall) (b : Batch) :
    Touring s calls false (s.runPass (calls.map DriverCall.job) [.arrange b]) ∨
      ∃ s₁, s.Works calls s₁ ∧
        Touring (s₁.publish b) [] true (s.runPass (calls.map DriverCall.job) [.arrange b]) := by
  obtain ⟨works, p, hp, grown⟩ := opening_step s.registry.drivers hs calls
    [.arrange b]
  have heads : (opening s p [] [.arrange b]).trampoline.Heads (.arrange b) :=
    ⟨⟨[], rfl, by simp⟩, fun k hk i hi => by cases k <;> first | exact absurd rfl hk | cases hi⟩
  have first : Setting s calls b ((opening s .actions (calls.map DriverCall.job) [.arrange b]).step
      (PassJob.system s.registry.drivers) .all) := by
    rcases hp with rfl | rfl
    · exact .acting grown.phase (grown.heads heads) works grown.published
    · exact .arranging grown.phase (grown.heads heads) works grown.published
  obtain ⟨last, hdone⟩ := runPass_induction first fun _ ht => ht.step hs
  cases last with
  | acting hp | arranging hp | publishing hp => rw [hdone] at hp; cases hp
  | failed h => exact .inl h
  | published works h => exact .inr ⟨_, works, h⟩

theorem works_setUp (hs : s.Orderly) :
    (s.record (.passBegun .setup [])).Works (s.tour .setup none) s.setUp.2 := by
  have := works_runPass (s := s.record (.passBegun .setup [])) (hs.record _)
    (s.tour .setup none)
  rwa [← callsFor_eq] at this

theorem works_tearDown (hs : s.Orderly) :
    (s.record (.passBegun .teardown [])).Works (s.tour .teardown none).reverse s.tearDown := by
  have := works_runPass (s := s.record (.passBegun .teardown [])) (hs.record _)
    (s.tour .teardown none).reverse
  rwa [List.map_reverse, ← callsFor_eq] at this

theorem works_tearDownDynamic (hs : s.Orderly) (id : PartyId) :
    (s.record (.passBegun .teardownDynamic [id])).Works
      (s.tour .teardownDynamic (some id)).reverse (s.tearDownDynamic id) := by
  have := works_runPass (s := s.record (.passBegun .teardownDynamic [id]))
    (hs.record _) (s.tour .teardownDynamic (some id)).reverse
  rwa [List.map_reverse, ← callsFor_eq] at this

/-- The calls of all drivers for each of the parties of a batch. -/
def batchTour (s : Service) (b : Batch) : List DriverCall :=
  b.parties.flatMap fun id => s.tour .setupDynamic (some id)

/-- An addition fails and leaves nothing but calls and requests, or it succeeds and has put the
batch into the graph at one point after all calls. -/
theorem setUpDynamic_cases (hs : s.Orderly) (b : Batch) :
    (∃ e, (s.setUpDynamic b).1 = .error e) ∧
        (s.record (.passBegun .setupDynamic b.parties)).Works (s.batchTour b)
          (s.setUpDynamic b).2 ∨
      (s.setUpDynamic b).1 = .ok () ∧
        ∃ s₁, (s.record (.passBegun .setupDynamic b.parties)).Works (s.batchTour b) s₁ ∧
          (s₁.publish b).Works [] (s.setUpDynamic b).2 := by
  have cases := setting_runPass (s := s.record (.passBegun .setupDynamic b.parties))
    (hs.record _) (s.batchTour b) b
  have hcalls : (s.batchTour b).map DriverCall.job
      = b.parties.flatMap fun id => s.callsFor .setupDynamic (some id) := by
    simp only [batchTour, List.map_flatMap, callsFor_eq]
  rw [hcalls] at cases
  have outcome {published : Bool} (h : (Run.jobs ((s.record
      (.passBegun .setupDynamic b.parties)).runPass (b.parties.flatMap fun id =>
        s.callsFor .setupDynamic (some id)) [.arrange b])).any PassJob.isPublication = published) :
      ∃ e, (s.setUpDynamic b).1 = if published then .ok () else .error e := by
    rw [Run.jobs, List.any_map] at h
    subst h
    exact ⟨_, rfl⟩
  rcases cases with h | ⟨s₁, works, h⟩
  · obtain ⟨e, he⟩ := outcome h.published
    exact .inl ⟨⟨e, he⟩, h.works⟩
  · obtain ⟨e, he⟩ := outcome h.published
    exact .inr ⟨he, s₁, works, h.works⟩

end Service

/-! ### Publications come late -/

theorem PassJob.IsDeed.isPublication_eq_false {j : PassJob} (h : j.IsDeed) :
    j.isPublication = false := by
  cases j <;> first | rfl | cases h

/-- What puts parties into the graph is registered as a success handler, if at all. -/
theorem PassJob.script_within (drivers : List Driver) (j : PassJob) :
    (PassJob.script drivers j).Within (fun k i => k = .success ∨ i.isPublication = false)
      fun _ => True := by
  cases j with
  | arrange b =>
    refine ⟨.inl rfl, fun answer => ?_⟩
    cases answer <;> trivial
  | call | deed | publish =>
    exact (script_within_deeds drivers id).mono (fun _ _ h => .inr h.isPublication_eq_false)
      fun _ _ => trivial

namespace Run

variable {drivers : List Driver} {r : Run PassJob Desk}

/-- Whether parties are put into the graph by success handlers only. -/
structure Punctual (r : Run PassJob Desk) : Prop where
  waiting : ∀ k, k ≠ .success → ∀ j ∈ r.trampoline.queue k, j.isPublication = false
  performed : ∀ e ∈ r.performed, e.job.isPublication = true → e.phase = .success

namespace Punctual

theorem perform (h : r.Punctual) {j : PassJob}
    (hj : r.phase = .success ∨ j.isPublication = false) :
    (r.perform (PassJob.system drivers) j).Punctual where
  waiting k hk i hi := by
    obtain ⟨new, hnew, hall⟩ := (PassJob.script_within drivers j).queue r.trampoline r.world k
    have hi : i ∈ r.trampoline.queue k ++ new := hnew ▸ hi
    rcases List.mem_append.mp hi with hi | hi
    · exact h.waiting k hk i hi
    · exact (hall i hi).resolve_left hk
  performed e he hp := by
    rcases Sequenced.mem_performed_perform.mp he with he | rfl
    · exact h.performed e he hp
    · exact hj.resolve_right fun hno => absurd (hp.symm.trans hno) (by simp)

theorem performs (h : r.Punctual) {js : List PassJob}
    (hjs : r.phase = .success ∨ ∀ j ∈ js, j.isPublication = false) :
    (js.foldl (Run.perform (PassJob.system drivers)) r).Punctual := by
  induction js generalizing r with
  | nil => exact h
  | cons j js ih =>
    refine ih (h.perform (hjs.imp_right fun h => h j List.mem_cons_self)) ?_
    rw [phase_perform]
    exact hjs.imp_right fun h i hi => h i (List.mem_cons_of_mem _ hi)

theorem step (h : r.Punctual) : (r.step (PassJob.system drivers) .all).Punctual := by
  by_cases hround : r.round = []
  · rw [step_of_round_nil hround]
    exact ⟨fun k hk j hj => h.waiting k hk j (Trampoline.mem_queue_enter hj), h.performed⟩
  rw [step_of_round hround]
  refine performs (r := { r with trampoline := r.trampoline.takeRound.2 })
    ⟨fun k hk j hj => h.waiting k hk j (Trampoline.mem_queue_takeRound hj), h.performed⟩ ?_
  rw [round_takeRound]
  cases hk : r.phase.kind? with
  | none =>
    have hk' : r.trampoline.phase.kind? = none := hk
    exact absurd (by simp [round, Trampoline.takeRound, hk']) hround
  | some k =>
    by_cases hs : k = .success
    · exact .inl (Phase.kind?_eq_some.mp (hs ▸ hk))
    · rw [round, Trampoline.takeRound_fst _ hk]
      exact .inr (h.waiting k hs)

end Punctual

end Run

namespace Service

/-- The run that `setUpDynamic` comes to. -/
def setUpRun (s : Service) (b : Batch) : Run PassJob Desk :=
  (s.record (.passBegun .setupDynamic b.parties)).runPass
    (b.parties.flatMap fun id => s.callsFor .setupDynamic (some id)) [.arrange b]

theorem punctual_setUpRun (s : Service) (b : Batch) : (s.setUpRun b).Punctual := by
  rw [setUpRun, runPass]
  refine (Run.toEnd_induction (fun r hr _ => hr.step) _ ⟨?_, ?_⟩).1
  · intro k hk j hj
    cases k with
    | action =>
      obtain ⟨id, -, hj⟩ := List.mem_flatMap.mp hj
      obtain ⟨position, -, rfl⟩ := List.mem_map.mp hj
      rfl
    | success => exact absurd rfl hk
    | error | closing => cases hj
  · exact fun e he => absurd he List.not_mem_nil

theorem sequenced_setUpRun (s : Service) (b : Batch) : (s.setUpRun b).Sequenced := by
  rw [setUpRun, runPass]
  exact (Run.toEnd_induction (fun r hr _ => hr.step) _ (.start rfl _)).1

/-- An addition succeeds when its pass has put parties into the graph. -/
theorem setUpDynamic_eq_ok_iff (s : Service) (b : Batch) :
    (s.setUpDynamic b).1 = .ok () ↔
      ∃ e ∈ (s.setUpRun b).performed, e.job.isPublication = true := by
  rw [← List.any_eq_true]
  cases hp : (s.setUpRun b).performed.any (fun p => p.job.isPublication) with
  | true =>
    have hsucceeds : (s.setUpDynamic b).1 = .ok () := if_pos hp
    simp [hsucceeds]
  | false =>
    have hfails : (s.setUpDynamic b).1 = .error (s.setUpRun b).outcome.passFailure :=
      if_neg (Bool.not_eq_true _ ▸ hp)
    simp [hfails]

/-- Parties are put into the graph in the phase of success, when no action of their pass has
failed. -/
theorem failedIn_of_isPublication {s : Service} {b : Batch} {e : Performed PassJob}
    (he : e ∈ (s.setUpRun b).performed) (hp : e.job.isPublication = true) :
    e.phase = .success ∧ (s.setUpRun b).failedIn .actions = false := by
  have hphase := (s.punctual_setUpRun b).performed e he hp
  have hsuits := (s.sequenced_setUpRun b).performed_suits e he
  rw [hphase] at hsuits
  exact ⟨hphase, by simpa [Phase.suits] using hsuits⟩

theorem failedIn_setUpRun {s : Service} {b : Batch} (h : (s.setUpDynamic b).1 = .ok ()) :
    (s.setUpRun b).failedIn .actions = false := by
  obtain ⟨e, he, hp⟩ := (s.setUpDynamic_eq_ok_iff b).mp h
  exact (failedIn_of_isPublication he hp).2

end Service

end PartyGraph
