import PartyGraph.Proofs.Trampoline.Histories
import PartyGraph.Proofs.Trampoline.Worklist

/-!
# Once, unless late

In every history of a workshop a trampoline is bound once and run once, and in its run every job
that was accepted is accounted for. It is performed once, unless it is given up for a reason, or is
registered after the run has found the queue of its phase empty and before it enters the next phase.

Such a late job is lost though its registration was answered well. The answer says that the phase
accepts the job, which is true, and the run has stopped looking, which nobody can see. For this it
takes somebody who registers from outside while the run is between two strides; a job of the run
itself is never late, nor is one that is registered before the launch.

## Main definitions

* `Workshop.OnceUnlessLate`: what holds of a history.
* `Workshop.LosesNone`: whether no run loses a job that was registered from outside.

## Main results

* `Workshop.onceUnlessLate`: every accepted job is performed once, given up for a reason, or late.
* `Workshop.not_losesNone_late`: some runs do.
-/

namespace PartyGraph

namespace Workshop

variable {w w' : Workshop}

/-! ### What holds of every history -/

/-- What holds of a history. -/
structure OnceUnlessLate (es : List Episode) : Prop where
  /-- At most one run of a trampoline takes place. -/
  launches_le_one : ∀ t, (launchesOf t es).length ≤ 1
  /-- A request that is refused changes nothing. -/
  unchanged : ∀ e ∈ es, ∀ err, e.reply = .refused err → e.after = e.before
  /-- A trampoline cannot be bound again. -/
  bind_again : ∀ (earlier : List Episode) (e : Episode) (later : List Episode),
    es = earlier ++ e :: later → ∀ t memory, e.request = .bind t memory →
    (∃ x ∈ earlier, x.claims? = some t) → e.reply = .refused .alreadyClaimed
  /-- A runner cannot run again. -/
  launch_again : ∀ (earlier : List Episode) (e : Episode) (later : List Episode),
    es = earlier ++ e :: later → ∀ i mode, e.request = .launch i mode →
    (∃ x ∈ earlier, ∃ mode', x.request = .launch i mode' ∧ x.launched?.isSome = true) →
      e.reply = .refused .alreadyExecuted
  /-- A run that is over has settled the account of all that was registered, from outside before
  its launch and by anybody from then on. -/
  run : ∀ (earlier : List Episode) (e : Episode) (mid : List Episode) (x : Episode)
    (later : List Episode), es = earlier ++ e :: (mid ++ x :: later) →
    ∀ i mode r o, e.request = .launch i mode → e.launched? = some r →
    x.request = .stride i → x.reply = .outcome o →
      let s := StagedRun.start Placed.system (e.before.trampoline r.trampoline) e.before.bench
      let events := (mid ++ [x]).map (·.event i r.trampoline)
      (s.play mode events).Settles mode
        (fun k => accepted r.trampoline k earlier ++ s.accepted mode k events)
        (fun k => s.late mode k events) ∧
      o = (s.play mode events).outcome ∧
      x.after.trampoline r.trampoline = (s.play mode events).trampoline
  /-- After the run nothing is registered any more. -/
  register_after : ∀ (earlier : List Episode) (e : Episode) (later : List Episode),
    es = earlier ++ e :: later → ∀ t memory k job, e.request = .register t memory k job →
    (∃ x ∈ earlier, ∃ r, x.ended? = some r ∧ r.trampoline = t) →
      e.reply = .refused (.phaseViolation k .completed)

/-- What is known when a run is launched. -/
theorem follows_of_launched {e : Episode} {i : Nat} {mode : RunMode} {r : Runner}
    (hs : e.before.Staffed) (he : Effect e.before e.request e.reply e.after)
    (hq : e.request = .launch i mode) (hr : e.launched? = some r) :
    e.before.runners[i]? = some r ∧ r.executed = false ∧
      e.after.Follows i r.trampoline mode
        (.start Placed.system (e.before.trampoline r.trampoline) e.before.bench) := by
  obtain ⟨w, q, reply, w'⟩ := e
  dsimp only at hs he hq ⊢
  subst hq
  cases he with
  | lacks | refuses => cases hr
  | adds request => rcases request with hq | hq | ⟨_, hq⟩ <;> cases hq
  | binds t' memory request => rcases request with hq | ⟨hq, -⟩ <;> cases hq
  | launches _ r' _ runner fresh =>
    obtain rfl := Option.some.inj (hr.symm.trans runner)
    exact ⟨runner, fresh, .setRun runner (hs.runner_lt runner) mode _⟩

/-- The run that an outcome tells of. -/
theorem Follows.outcome {i t : Nat} {mode : RunMode} {s : StagedRun Placed.system}
    {o : Run.Outcome} (h : w.Follows i t mode s) (he : Effect w (.stride i) (.outcome o) w') :
    (s.stride mode).2.isDone = true ∧ o = (s.stride mode).2.outcome := by
  obtain ⟨r, c, hr, -, -, hc, rfl, rfl⟩ := h
  generalize hreply : Reply.outcome o = reply at he
  cases he with
  | lacks | refuses | adds | binds => cases hreply
  | strides _ r' c' runner course _ told =>
    obtain rfl := Option.some.inj (hr.symm.trans runner)
    obtain rfl := Option.some.inj (hc.symm.trans course)
    rw [← hreply] at told
    dsimp only at told
    split at told
    · next hdone => exact ⟨hdone, Reply.outcome.inj told⟩
    · cases told

theorem exists_history_concat (w : Workshop) (qs : List Request) (q : Request) :
    ∃ e : Episode, w.history (qs ++ [q]) = w.history qs ++ [e] := by
  induction qs generalizing w with
  | nil => exact ⟨_, rfl⟩
  | cons q' qs ih =>
    obtain ⟨e, he⟩ := ih (w.respond q').2
    exact ⟨e, by rw [List.cons_append, history, he, history, List.cons_append]⟩

/-- What is known of a workshop says how it replies to the next request. -/
theorem onceUnlessLate_history (qs : List Request) : OnceUnlessLate (empty.history qs) := by
  have htracked : ∀ {qs earlier e later}, empty.history qs = earlier ++ e :: later →
      Tracked e.before earlier := fun hsplit => by
    simpa using tracked_history tracked_empty hsplit
  constructor
  case launches_le_one =>
    intro t
    -- The history ends in a workshop that could be asked for more.
    obtain ⟨e, he⟩ := exists_history_concat empty qs .addMemory
    have h := htracked he
    by_cases hlaunches : launchesOf t (empty.history qs) = []
    · rw [hlaunches]
      exact Nat.zero_le 1
    · exact Nat.le_of_eq (h.launched hlaunches).2
  case unchanged =>
    intro e he err hreply
    obtain ⟨earlier, later, hsplit⟩ := List.append_of_mem he
    have heffect := effect_of_respond (history_split hsplit).1
    rw [hreply] at heffect
    exact heffect.eq_of_refused
  case bind_again =>
    intro earlier e later hsplit t memory hq hx
    obtain ⟨x, hx, hclaims⟩ := hx
    obtain ⟨hclaimed, hlt⟩ := (htracked hsplit).claims x hx t hclaims
    have hrespond := (history_split hsplit).1
    rw [hq, respond, if_pos hlt, bind_of_claimed hclaimed] at hrespond
    exact (congrArg Prod.fst hrespond).symm
  case launch_again =>
    intro earlier e later hsplit i mode hq hx
    obtain ⟨x, hx, mode', hq', hran⟩ := hx
    obtain ⟨r, hr, hexecuted⟩ := (htracked hsplit).ran x hx i mode' hq' hran
    have hrespond := (history_split hsplit).1
    rw [hq, respond, hr] at hrespond
    dsimp only at hrespond
    rw [launch_of_executed hexecuted] at hrespond
    exact (congrArg Prod.fst hrespond).symm
  case run =>
    intro earlier e mid x later hsplit i mode r o hq hr hx ho
    have h := htracked hsplit
    obtain ⟨hrespond, qs', hlater⟩ := history_split hsplit
    have heffect := effect_of_respond hrespond
    obtain ⟨hrunner, hfresh, hfollows⟩ := follows_of_launched h.toStaffed heffect hq hr
    obtain ⟨hactions, hqueue⟩ := h.unrun (h.launchesOf_eq_nil hrunner hfresh)
    -- The run is followed up to its last stride.
    have hx' := follows_history (h.effect heffect) hfollows hlater
    have hstaffed := (tracked_history (h.effect heffect) hlater).toStaffed
    have hlast := effect_of_respond (history_split hlater).1
    rw [hx, ho] at hlast
    obtain ⟨hdone, houtcome⟩ := hx'.outcome hlast
    obtain ⟨r', c', -, htrampoline, -, -, -, hrun⟩ := hx'.strides hstaffed hlast
    have hevent : x.event i r.trampoline = .stride := by
      rw [Episode.event, hx]
      exact if_pos rfl
    have hplay : ∀ s : StagedRun Placed.system,
        s.play mode ((mid ++ [x]).map (·.event i r.trampoline))
          = ((s.play mode (mid.map (·.event i r.trampoline))).stride mode).2 := by
      intro s
      rw [List.map_append, List.map_singleton, hevent, StagedRun.play_append]
      rfl
    dsimp only
    simp only [← hqueue, hplay]
    rw [← hplay] at hdone houtcome hrun ⊢
    refine ⟨StagedRun.settles_play hactions _ hdone, houtcome, ?_⟩
    rw [← hrun, ← htrampoline]
    rfl
  case register_after =>
    intro earlier e later hsplit t memory k job hq hx
    obtain ⟨x, hx, r, hended, rfl⟩ := hx
    have hphase := (htracked hsplit).ended x hx r hended
    have hlt : r.trampoline < e.before.trampolines.size := by
      by_contra hge
      rw [trampoline, Array.getD_eq_getD_getElem?, Array.getElem?_eq_none (by omega)] at hphase
      cases hphase
    have hrefused : e.before.register r.trampoline memory k job
        = .error (.phaseViolation k .completed) := by
      simp [register, Trampoline.register, hphase, Phase.accepts]
    have hrespond := (history_split hsplit).1
    rw [hq, respond, if_pos hlt, hrefused] at hrespond
    exact (congrArg Prod.fst hrespond).symm

/-- **Every accepted job is performed once, given up for a reason, or late.** Whatever jobs do and
whatever others do meanwhile, a run that is over has settled the account of all that was accepted,
and it has performed all that was not to be given up exactly if nothing of it was late. In every
history of a workshop a trampoline is bound once and run once, and its run is such a run. -/
theorem onceUnlessLate {J W : Type} (sys : JobSystem J W) (mode : RunMode) {t : Trampoline J}
    (ht : t.phase = .actions) (w : W) {es : List (StagedRun.Event J W)}
    (hdone : ((StagedRun.start sys t w).play mode es).isDone = true) (qs : List Request) :
    ((StagedRun.start sys t w).play mode es).Settles mode
        (fun k => t.queue k ++ (StagedRun.start sys t w).accepted mode k es)
        (fun k => (StagedRun.start sys t w).late mode k es) ∧
      OnceUnlessLate (empty.history qs) :=
  ⟨StagedRun.settles_play ht w hdone, onceUnlessLate_history qs⟩

/-- A trampoline with an action that panics after it has registered another, and a handler of each
kind. -/
def crowded : Trampoline Placed :=
  ⟨.actions, true, [⟨0, Run.panicking⟩], [⟨0, Run.noting⟩], [⟨0, Run.panicking⟩],
    [⟨0, Run.noting⟩]⟩

/-- A handler is registered from outside while the first action is under way, and the run goes on
to its end. -/
def overlap : List (StagedRun.Event Placed Bench) :=
  [.stride, .stride, .register .closing ⟨0, Run.noting⟩] ++ List.replicate 24 .stride

/-- Two rounds of actions, one of error handlers and one of closing handlers, with the passages
between them, and a history in which others come between strides. -/
theorem onceUnlessLate_of_overlap :
    crowded.phase = .actions ∧
      ((StagedRun.start Placed.system crowded ⟨#[Memory.empty], []⟩).play .all overlap).isDone
        = true ∧
      ((StagedRun.start Placed.system crowded ⟨#[Memory.empty], []⟩).play .all overlap).Settles .all
        (fun k => crowded.queue k ++
          (StagedRun.start Placed.system crowded ⟨#[Memory.empty], []⟩).accepted .all k overlap)
        (fun k => (StagedRun.start Placed.system crowded ⟨#[Memory.empty], []⟩).late .all k
          overlap) ∧
      OnceUnlessLate (empty.history [.addRunner, .register 0 0 .action Run.panicking, .bind 0 0,
        .launch 0 .all, .stride 0, .register 0 0 .closing Run.noting,
        .launch 0 .untilFailure]) := by
  have done : ((StagedRun.start Placed.system crowded ⟨#[Memory.empty], []⟩).play .all
      overlap).isDone = true := by
    decide +kernel
  exact ⟨rfl, done, onceUnlessLate Placed.system .all rfl _ done _⟩

/-! ### Jobs that are late -/

/-- Whether no run of all jobs loses one of a kind that was registered from outside. -/
def LosesNone (k : JobKind) : Prop :=
  ∀ (qs : List Request) (i : Nat) (r : Runner) (c : Course),
    (empty.serve qs).runners[i]? = some r → r.course = some c → c.mode = .all →
      ((empty.serve qs).trampoline r.trampoline).phase = .completed →
        ∀ p ∈ accepted r.trampoline k (empty.history qs), p ∈ c.performed.map (·.job)

/-- A run without jobs, in which one of a kind is registered between two strides. -/
def interrupted (k : JobKind) (before after : Nat) : List Request :=
  [.addRunner, .launch 0 .all] ++ List.replicate before (.stride 0)
    ++ [.register 0 0 k Run.noting] ++ List.replicate after (.stride 0)

/-- An action that is accepted after the run has found none is never performed, though the run
performs all of its actions and none has failed; nor is a closing handler that comes after the run
has found no more of them. -/
theorem not_losesNone_late : ¬ LosesNone .action ∧ ¬ LosesNone .closing := by
  constructor
  · intro h
    have hmem := h (interrupted .action 1 5) 0 _ _ rfl rfl rfl rfl ⟨0, Run.noting⟩
      (List.mem_singleton_self _)
    cases hmem
  · intro h
    have hmem := h (interrupted .closing 5 1) 0 _ _ rfl rfl rfl rfl ⟨0, Run.noting⟩
      (List.mem_singleton_self _)
    cases hmem

/-- The registration is answered well, and so is the run. -/
example : (empty.history (interrupted .action 1 5)).map (·.reply) =
    [.done, .done, .done, .done, .done, .done, .done, .done,
      .outcome ⟨⟨false, false, false, false⟩, none⟩] := rfl

end Workshop

end PartyGraph
