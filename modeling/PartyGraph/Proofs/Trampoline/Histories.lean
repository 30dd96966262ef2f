import Mathlib.Tactic.ByContra
import PartyGraph.Proofs.Trampoline.Requests

/-!
# Histories of a workshop

The invariant of a history (`Workshop.Tracked`) knows a trampoline by what the history has made of
it. As long as no run of it was launched, its queues hold exactly the jobs registered from outside.
That there is one run only rests on the claim of a trampoline: a runner is bound to a trampoline of
its own, and remembers having been asked to run.

From its launch on, a run is one that others come between (`Workshop.Follows`). What is registered
on its trampoline is an event from outside for it, its strides are its own, and all the rest can
only change the bench.

## Main definitions

* `Workshop.Tracked`: what is known of a workshop after a history.
* `Workshop.Follows`: a run in a workshop is a run that others come between.

## Main results

* `Workshop.Tracked.effect`, `Workshop.tracked_history`: every request keeps track.
* `Workshop.Follows.effect`, `Workshop.follows_history`: what is asked of the workshop is an event
  for the run.
-/

namespace PartyGraph

namespace Workshop

variable {w w' : Workshop}

/-! ### What a history makes of a workshop -/

/-- What is known of a workshop after a history. -/
structure Tracked (w : Workshop) (es : List Episode) : Prop extends Staffed w where
  executed : ∀ {i : Nat} {r : Runner}, w.runners[i]? = some r →
    (r.executed = true ↔ launchesOf r.trampoline es ≠ [])
  course : ∀ {i : Nat} {r : Runner}, w.runners[i]? = some r → r.course.isSome = true →
    r.executed = true
  /-- Before its run, a trampoline holds what was registered from outside. -/
  unrun : ∀ {t}, launchesOf t es = [] →
    (w.trampoline t).phase = .actions ∧ ∀ k, (w.trampoline t).queue k = accepted t k es
  launched : ∀ {t}, launchesOf t es ≠ [] →
    (w.trampoline t).claimed = true ∧ (launchesOf t es).length = 1
  claims : ∀ e ∈ es, ∀ t, e.claims? = some t →
    (w.trampoline t).claimed = true ∧ t < w.trampolines.size
  ran : ∀ e ∈ es, ∀ i mode, e.request = .launch i mode → e.launched?.isSome = true →
    ∃ r, w.runners[i]? = some r ∧ r.executed = true
  ended : ∀ e ∈ es, ∀ r, e.ended? = some r → (w.trampoline r.trampoline).phase = .completed

theorem tracked_empty : Tracked empty [] where
  runner_lt h := by simp [empty] at h
  claimed h := by simp [empty] at h
  unique h := by simp [empty] at h
  executed h := by simp [empty] at h
  course h := by simp [empty] at h
  unrun {t} _ := by
    refine ⟨by simp [empty, trampoline, Trampoline.empty], fun k => ?_⟩
    cases k <;> simp [empty, trampoline, Trampoline.empty, accepted, Trampoline.queue]
  launched h := absurd rfl h
  claims _ h := absurd h List.not_mem_nil
  ran _ h := absurd h List.not_mem_nil
  ended _ h := absurd h List.not_mem_nil

theorem forall_mem_concat {P : Episode → Prop} {es : List Episode} {e : Episode}
    (h : ∀ x ∈ es, P x) (he : P e) : ∀ x ∈ es ++ [e], P x :=
  List.forall_mem_append.mpr ⟨h, List.forall_mem_singleton.mpr he⟩

theorem accepted_concat (t : Nat) (k : JobKind) (es : List Episode) (e : Episode) :
    accepted t k (es ++ [e]) = accepted t k es ++ e.accepted t k := by
  simp [accepted]

theorem launchesOf_concat (t : Nat) (es : List Episode) (e : Episode) :
    launchesOf t (es ++ [e]) = launchesOf t es ++ if e.launches t then [e] else [] := by
  cases h : e.launches t <;> simp [launchesOf, h]

theorem launchesOf_concat_of_none {e : Episode} (h : e.launched? = none) (t : Nat)
    (es : List Episode) : launchesOf t (es ++ [e]) = launchesOf t es := by
  rw [launchesOf_concat, if_neg (by simp [Episode.launches, h]), List.append_nil]

/-- The launch of a runner is one of its trampoline. -/
theorem launchesOf_concat_launch {i : Nat} {mode : RunMode} {r : Runner}
    (hr : w.runners[i]? = some r) (t : Nat) (es : List Episode) :
    launchesOf t (es ++ [⟨w, .launch i mode, .done, w'⟩])
      = launchesOf t es ++ if r.trampoline = t then [⟨w, .launch i mode, .done, w'⟩] else [] := by
  have hlaunched : (⟨w, .launch i mode, .done, w'⟩ : Episode).launched? = some r := hr
  rw [launchesOf_concat]
  by_cases ht : r.trampoline = t <;> simp [Episode.launches, hlaunched, ht]

namespace Tracked

variable {es : List Episode} {e : Episode}

/-- Trampolines may be added, and the bench may change. -/
theorem congr (h : Tracked w es) (hsize : w.trampolines.size ≤ w'.trampolines.size)
    (htrampoline : ∀ t, w'.trampoline t = w.trampoline t) (hrunners : w'.runners = w.runners) :
    Tracked w' es where
  toStaffed := h.toStaffed.congr hsize (fun t => by rw [htrampoline]) fun i => by rw [hrunners]
  executed hr := h.executed (hrunners ▸ hr)
  course hr := h.course (hrunners ▸ hr)
  unrun ht := htrampoline _ ▸ h.unrun ht
  launched ht := htrampoline _ ▸ h.launched ht
  claims e he t hc := by
    obtain ⟨hclaimed, hlt⟩ := h.claims e he t hc
    exact ⟨htrampoline _ ▸ hclaimed, Nat.lt_of_lt_of_le hlt hsize⟩
  ran e he i mode hq hr := hrunners ▸ h.ran e he i mode hq hr
  ended e he r hr := htrampoline _ ▸ h.ended e he r hr

/-- An episode may be added that registers and launches nothing. -/
theorem concat (h : Tracked w es) (hnone : ∀ t k, e.accepted t k = [])
    (hlaunch : e.launched? = none)
    (hclaims : ∀ t, e.claims? = some t →
      (w.trampoline t).claimed = true ∧ t < w.trampolines.size)
    (hended : ∀ r, e.ended? = some r → (w.trampoline r.trampoline).phase = .completed) :
    Tracked w (es ++ [e]) := by
  have hlaunches := fun t => launchesOf_concat_of_none hlaunch t es
  constructor
  case toStaffed => exact h.toStaffed
  case executed =>
    intro i r hr
    rw [hlaunches]
    exact h.executed hr
  case course => exact h.course
  case unrun =>
    intro t ht
    rw [hlaunches] at ht
    refine ⟨(h.unrun ht).1, fun k => ?_⟩
    rw [accepted_concat, hnone, List.append_nil, (h.unrun ht).2]
  case launched =>
    intro t ht
    rw [hlaunches] at ht ⊢
    exact h.launched ht
  case claims =>
    exact forall_mem_concat h.claims hclaims
  case ran =>
    exact forall_mem_concat h.ran (by simp [hlaunch])
  case ended =>
    exact forall_mem_concat h.ended hended

/-- A trampoline that is not claimed has not been run. -/
theorem launchesOf_eq_nil_of_free (h : Tracked w es) {t : Nat}
    (hfree : (w.trampoline t).claimed = false) : launchesOf t es = [] := by
  by_contra hne
  rw [(h.launched hne).1] at hfree
  cases hfree

/-- A runner that was not asked to run is the only one of its trampoline, of which no run was
launched either. -/
theorem launchesOf_eq_nil (h : Tracked w es) {i : Nat} {r : Runner} (hr : w.runners[i]? = some r)
    (hfresh : r.executed = false) : launchesOf r.trampoline es = [] := by
  by_contra hne
  rw [(h.executed hr).mpr hne] at hfresh
  cases hfresh

/-- A runner is bound to a trampoline that was not claimed before. -/
theorem binds (h : Tracked w es) {t memory : Nat} (free : (w.trampoline t).claimed = false)
    (lt : t < w'.trampolines.size) (size : w.trampolines.size ≤ w'.trampolines.size)
    (same : w'.trampoline t = { w.trampoline t with claimed := true })
    (other : ∀ t', t' ≠ t → w'.trampoline t' = w.trampoline t')
    (runners : w'.runners = w.runners.push ⟨t, memory, false, none⟩) : Tracked w' es := by
  have hunrun := h.launchesOf_eq_nil_of_free free
  have hcases : ∀ {i : Nat} {r : Runner}, w'.runners[i]? = some r →
      w.runners[i]? = some r ∨ r = ⟨t, memory, false, none⟩ := by
    intro i r hr
    rw [runners, Array.getElem?_push] at hr
    split at hr
    · exact .inr (Option.some.inj hr).symm
    · exact .inl hr
  constructor
  case toStaffed => exact h.toStaffed.binds free lt size same other runners
  case executed =>
    intro i r hr
    rcases hcases hr with hr | rfl
    · exact h.executed hr
    · simp [hunrun]
  case course =>
    intro i r hr hc
    rcases hcases hr with hr | rfl
    · exact h.course hr hc
    · cases hc
  case unrun =>
    intro t' ht
    by_cases heq : t' = t
    · subst heq
      rw [same]
      refine ⟨(h.unrun ht).1, fun k => ?_⟩
      rw [← (h.unrun ht).2 k]
      cases k <;> rfl
    · rw [other t' heq]
      exact h.unrun ht
  case launched =>
    intro t' ht
    have heq : t' ≠ t := by
      rintro rfl
      exact ht hunrun
    rw [other t' heq]
    exact h.launched ht
  case claims =>
    intro e he t' hc
    obtain ⟨hclaimed, hlt⟩ := h.claims e he t' hc
    refine ⟨?_, Nat.lt_of_lt_of_le hlt size⟩
    by_cases heq : t' = t
    · rw [heq, same]
    · rwa [other t' heq]
  case ran =>
    intro e he i mode hq hran
    obtain ⟨r, hr, hex⟩ := h.ran e he i mode hq hran
    have hi : i < w.runners.size := (Array.getElem?_eq_some_iff.mp hr).1
    exact ⟨r, by rw [runners, Array.getElem?_push_lt hi, ← hr, Array.getElem?_eq_getElem hi], hex⟩
  case ended =>
    intro e he r hr
    by_cases heq : r.trampoline = t
    · rw [heq, same, ← heq]
      exact h.ended e he r hr
    · rw [other _ heq]
      exact h.ended e he r hr

/-- A job is registered. -/
theorem registers (h : Tracked w es) {t memory : Nat} {kind : JobKind}
    {job : Deed JobCommand JobCommand.Answer} {c : Trampoline Placed}
    (accepted : (w.trampoline t).register kind ⟨memory, job⟩ = .ok c) (sets : w.Sets t c w')
    (runners : w'.runners = w.runners) :
    Tracked w' (es ++ [⟨w, .register t memory kind job, .done, w'⟩]) := by
  have hlaunches := fun t' => launchesOf_concat_of_none
    (e := ⟨w, .register t memory kind job, .done, w'⟩) rfl t' es
  obtain ⟨haccepts, hc⟩ := Trampoline.register_eq_ok accepted
  have hclaimed := sets.claimed (by rw [hc, Trampoline.claimed_withQueue])
  have hphase : ∀ t', (w'.trampoline t').phase = (w.trampoline t').phase := by
    intro t'
    by_cases heq : t' = t
    · rw [heq, sets.same, hc, Trampoline.phase_withQueue]
    · rw [sets.other heq]
  constructor
  case toStaffed =>
    exact h.toStaffed.congr (Nat.le_of_eq sets.size.symm) hclaimed fun i => by rw [runners]
  case executed =>
    intro i r hr
    rw [hlaunches]
    exact h.executed (runners ▸ hr)
  case course => exact fun hr => h.course (runners ▸ hr)
  case unrun =>
    intro t' ht
    rw [hlaunches] at ht
    obtain ⟨hactions, hqueue⟩ := h.unrun ht
    refine ⟨(hphase t').trans hactions, fun k => ?_⟩
    rw [accepted_concat, ← hqueue k]
    by_cases heq : t' = t
    · subst heq
      rw [sets.same, Script.queue_register accepted]
      by_cases hk : k = kind
      · simp [Episode.accepted, hk]
      · simp [Episode.accepted, hk, Ne.symm hk]
    · rw [sets.other heq]
      simp [Episode.accepted, Ne.symm heq]
  case launched =>
    intro t' ht
    rw [hlaunches] at ht ⊢
    rw [hclaimed]
    exact h.launched ht
  case claims =>
    simp only [hclaimed, sets.size]
    exact forall_mem_concat h.claims fun _ ht => nomatch ht
  case ran =>
    rw [runners]
    exact forall_mem_concat h.ran fun _ _ hq => nomatch hq
  case ended =>
    simp only [hphase]
    exact forall_mem_concat h.ended fun _ hr => nomatch hr

/-- A run is launched of a trampoline of which there was none. -/
theorem launches (h : Tracked w es) {i : Nat} {mode : RunMode} {r : Runner}
    (hr : w.runners[i]? = some r) (hfresh : r.executed = false)
    (hw : w' = w.setRun i r mode (.start Placed.system (w.trampoline r.trampoline) w.bench)) :
    Tracked w' (es ++ [⟨w, .launch i mode, .done, w'⟩]) := by
  have hunrun := h.launchesOf_eq_nil hr hfresh
  have hset : w.Sets r.trampoline (w.trampoline r.trampoline) w' :=
    hw ▸ sets_setRun (h.runner_lt hr) i mode
      (.start Placed.system (w.trampoline r.trampoline) w.bench)
  have hsame : ∀ t, w'.trampoline t = w.trampoline t := by
    intro t
    by_cases ht : t = r.trampoline
    · rw [ht, hset.same]
    · rw [hset.other ht]
  have hlaunches : ∀ t, launchesOf t (es ++ [⟨w, .launch i mode, .done, w'⟩]) = _ :=
    fun t => launchesOf_concat_launch hr t es
  have hacc : ∀ t k, accepted t k (es ++ [⟨w, .launch i mode, .done, w'⟩]) = accepted t k es :=
    fun t k => by rw [accepted_concat]; exact List.append_nil _
  have hself : w'.runners[i]? = some { r with
      executed := true, course := some ⟨mode, [], .polling⟩ } := by
    rw [hw, runners_setRun_same hr]
    rfl
  have hother : ∀ {j}, j ≠ i → w'.runners[j]? = w.runners[j]? := fun hj => by
    rw [hw, runners_setRun_of_ne hj]
  constructor
  case toStaffed => exact hw ▸ h.toStaffed.setRun hr mode rfl
  case executed =>
    intro j r' hr'
    rw [hlaunches]
    by_cases hj : j = i
    · subst hj
      obtain rfl := Option.some.inj (hself.symm.trans hr')
      simp
    · rw [hother hj] at hr'
      rw [if_neg fun heq => hj (h.unique hr' hr heq.symm), List.append_nil]
      exact h.executed hr'
  case course =>
    intro j r' hr' hc
    by_cases hj : j = i
    · subst hj
      obtain rfl := Option.some.inj (hself.symm.trans hr')
      rfl
    · rw [hother hj] at hr'
      exact h.course hr' hc
  case unrun =>
    intro t ht
    rw [hlaunches, List.append_eq_nil_iff] at ht
    refine ⟨hsame t ▸ (h.unrun ht.1).1, fun k => ?_⟩
    rw [hacc, hsame, (h.unrun ht.1).2]
  case launched =>
    intro t ht
    rw [hlaunches] at ht ⊢
    rw [hsame]
    by_cases heq : r.trampoline = t
    · subst heq
      rw [hunrun]
      exact ⟨h.claimed hr, by simp⟩
    · rw [if_neg heq, List.append_nil] at ht ⊢
      exact h.launched ht
  case claims =>
    simp only [hsame, hset.size]
    exact forall_mem_concat h.claims fun _ ht => nomatch ht
  case ran =>
    refine forall_mem_concat (fun e' he' j mode' hq' hran => ?_) fun j mode' hq' _ => ?_
    · by_cases hj : j = i
      · exact ⟨_, hj ▸ hself, rfl⟩
      · rw [hother hj]
        exact h.ran e' he' j mode' hq' hran
    · obtain rfl := (Request.launch.inj hq').1
      exact ⟨_, hself, rfl⟩
  case ended =>
    simp only [hsame]
    exact forall_mem_concat h.ended fun _ hr => nomatch hr

/-- A run goes on. -/
theorem strides (h : Tracked w es) {i : Nat} {r : Runner} {c : Course}
    (hr : w.runners[i]? = some r) (hc : r.course = some c)
    (going : (w.runOf r c).isDone = false) (hw : w' = w.stride i r c) : Tracked w' es := by
  have hset : w.Sets r.trampoline ((w.runOf r c).stride c.mode).2.trampoline w' :=
    hw ▸ sets_setRun (h.runner_lt hr) i c.mode _
  have hexecuted : r.executed = true := h.course hr (by rw [hc]; rfl)
  have hclaimed := hset.claimed (StagedRun.claimed_stride (w.runOf r c) c.mode)
  have hcases : ∀ {j : Nat} {r' : Runner}, w'.runners[j]? = some r' →
      r'.executed = true ∧ r'.trampoline = r.trampoline ∨ w.runners[j]? = some r' := by
    intro j r' hr'
    by_cases hj : j = i
    · subst hj
      rw [hw, stride, runners_setRun_same hr] at hr'
      obtain rfl := Option.some.inj hr'
      exact .inl ⟨rfl, rfl⟩
    · rw [hw, stride, runners_setRun_of_ne hj] at hr'
      exact .inr hr'
  constructor
  case toStaffed => exact hw ▸ h.toStaffed.setRun hr c.mode (StagedRun.claimed_stride _ _)
  case executed =>
    intro j r' hr'
    rcases hcases hr' with ⟨hex, ht⟩ | hr'
    · rw [hex, ht, ← h.executed hr, hexecuted]
    · exact h.executed hr'
  case course =>
    intro j r' hr' hc'
    rcases hcases hr' with ⟨hex, -⟩ | hr'
    · exact hex
    · exact h.course hr' hc'
  case unrun =>
    intro t ht
    have heq : t ≠ r.trampoline := by
      rintro rfl
      exact (h.executed hr).mp hexecuted ht
    rw [hset.other heq]
    exact h.unrun ht
  case launched =>
    intro t ht
    rw [hclaimed]
    exact h.launched ht
  case claims =>
    simp only [hclaimed, hset.size]
    exact h.claims
  case ran =>
    intro e he j mode hq hran
    by_cases hj : j = i
    · subst hj
      exact ⟨_, by rw [hw, stride, runners_setRun_same hr], rfl⟩
    · obtain ⟨r', hr', hex⟩ := h.ran e he j mode hq hran
      exact ⟨r', by rwa [hw, stride, runners_setRun_of_ne hj], hex⟩
  case ended =>
    intro e he r' hr'
    have hp := h.ended e he r' hr'
    have heq : r'.trampoline ≠ r.trampoline := by
      intro heq
      rw [heq] at hp
      rw [Run.isDone, show (w.runOf r c).phase = .completed from hp] at going
      cases going
    rw [hset.other heq]
    exact hp

/-- **Every request keeps track.** -/
theorem effect (h : Tracked w es) {q : Request} {reply : Reply} (he : Effect w q reply w') :
    Tracked w' (es ++ [⟨w, q, reply, w'⟩]) := by
  cases he with
  | lacks | refuses =>
    refine h.concat (fun t k => ?_) ?_ (fun t ht => ?_) fun r hr => ?_
    · cases q <;> rfl
    · cases q <;> rfl
    · cases q <;> cases ht
    · cases q <;> cases hr
  | adds request size trampoline runners =>
    have hadded := h.congr size trampoline runners
    rcases request with rfl | rfl | ⟨_, rfl⟩ <;>
      exact hadded.concat (fun _ _ => rfl) rfl (fun _ ht => nomatch ht) fun _ hr => nomatch hr
  | binds t memory request free lt size same other runners =>
    have hbound := h.binds free lt size same other runners
    have hclaims : (w'.trampoline t).claimed = true ∧ t < w'.trampolines.size :=
      ⟨by rw [same], lt⟩
    rcases request with rfl | ⟨rfl, rfl⟩ <;>
      refine hbound.concat (fun _ _ => rfl) rfl (fun t' ht => ?_) fun _ hr => nomatch hr
    · obtain rfl := Option.some.inj ht
      exact hclaims
    · obtain rfl := Option.some.inj ht
      exact hclaims
  | registers t memory kind job _ accepted sets _ runners => exact h.registers accepted sets runners
  | launches i r mode runner fresh => exact h.launches runner fresh rfl
  | strides i r c runner course going told =>
    refine (h.strides runner course going rfl).concat (fun _ _ => rfl) rfl (fun _ ht => nomatch ht)
      fun r' hr' => ?_
    dsimp only at told
    split at told
    · next hdone =>
      subst told
      obtain rfl : r = r' := Option.some.inj (runner.symm.trans hr')
      rw [stride, (sets_setRun (h.runner_lt runner) i c.mode _).same]
      exact Run.phase_of_isDone hdone
    · subst told
      cases hr'

end Tracked

/-- The episodes of a history are what requests do, one after the other. -/
theorem history_split {qs : List Request} {earlier later : List Episode} {e : Episode}
    (hsplit : w.history qs = earlier ++ e :: later) :
    e.before.respond e.request = (e.reply, e.after) ∧ ∃ qs', e.after.history qs' = later := by
  induction qs generalizing w earlier with
  | nil => simp [history] at hsplit
  | cons q qs ih =>
    cases earlier with
    | nil =>
      obtain ⟨rfl, rfl⟩ := List.cons.inj hsplit
      exact ⟨rfl, qs, rfl⟩
    | cons x earlier => exact ih (List.cons.inj hsplit).2

/-- **Every history is tracked**, at each of its episodes. -/
theorem tracked_history {es : List Episode} (h : Tracked w es) {qs : List Request}
    {earlier later : List Episode} {e : Episode} (hsplit : w.history qs = earlier ++ e :: later) :
    Tracked e.before (es ++ earlier) := by
  induction qs generalizing w es earlier with
  | nil => simp [history] at hsplit
  | cons q qs ih =>
    cases earlier with
    | nil =>
      obtain ⟨rfl, -⟩ := List.cons.inj hsplit
      rwa [List.append_nil]
    | cons x earlier =>
      obtain ⟨rfl, hrest⟩ := List.cons.inj hsplit
      have := ih (h.effect (effect_respond w q)) hrest
      rwa [List.append_assoc, List.singleton_append] at this

/-! ### A run in a workshop -/

/-- Whether a runner has a run of a trampoline, and which run it is. -/
def Follows (w : Workshop) (i t : Nat) (mode : RunMode) (s : StagedRun Placed.system) : Prop :=
  ∃ r c, w.runners[i]? = some r ∧ r.trampoline = t ∧ r.executed = true ∧ r.course = some c ∧
    c.mode = mode ∧ w.runOf r c = s

namespace Follows

variable {i t : Nat} {mode : RunMode} {s : StagedRun Placed.system} {reply : Reply}

/-- The run that a runner has is the one that was set. -/
theorem setRun {r : Runner} (hr : w.runners[i]? = some r) (hlt : r.trampoline < w.trampolines.size)
    (mode : RunMode) (s : StagedRun Placed.system) :
    (w.setRun i r mode s).Follows i r.trampoline mode s := by
  refine ⟨_, _, runners_setRun_same hr, rfl, rfl, rfl, rfl, ?_⟩
  have hset := sets_setRun hlt i mode s
  rw [runOf, hset.same]
  rfl

/-- What is neither a stride of the run nor a registration on its trampoline leaves both alone. -/
theorem elsewhere (h : w.Follows i t mode s) (hs : w.Staffed) {q : Request}
    (he : Effect w q reply w') (hstride : q ≠ .stride i)
    (hregister : ∀ memory kind job, q ≠ .register t memory kind job) :
    w'.trampoline t = w.trampoline t ∧ w'.runners[i]? = w.runners[i]? := by
  obtain ⟨r, c, hr, rfl, hexecuted, -⟩ := h
  cases he with
  | lacks | refuses => exact ⟨rfl, rfl⟩
  | adds _ _ trampoline runners => exact ⟨trampoline _, by rw [runners]⟩
  | binds t' memory _ free _ _ _ other runners =>
    have hne : r.trampoline ≠ t' := by
      rintro rfl
      rw [hs.claimed hr] at free
      cases free
    have hi : i < w.runners.size := (Array.getElem?_eq_some_iff.mp hr).1
    refine ⟨other _ hne, ?_⟩
    rw [runners, Array.getElem?_push_lt hi, Array.getElem?_eq_getElem hi]
  | registers t' memory kind job _ _ sets _ runners =>
    have hne : r.trampoline ≠ t' := by
      rintro rfl
      exact hregister memory kind job rfl
    exact ⟨sets.other hne, by rw [runners]⟩
  | launches j r' mode' runner fresh =>
    have hj : i ≠ j := by
      rintro rfl
      obtain rfl := Option.some.inj (hr.symm.trans runner)
      rw [hexecuted] at fresh
      cases fresh
    refine ⟨(sets_setRun (hs.runner_lt runner) j mode' _).other fun ht => ?_,
      runners_setRun_of_ne hj⟩
    exact hj (hs.unique hr runner ht)
  | strides j r' c' runner =>
    have hj : i ≠ j := by
      rintro rfl
      exact hstride rfl
    refine ⟨(sets_setRun (hs.runner_lt runner) j c'.mode _).other fun ht => ?_,
      runners_setRun_of_ne hj⟩
    exact hj (hs.unique hr runner ht)

/-- What leaves the run and its trampoline alone can change the bench. -/
theorem changes (h : w.Follows i t mode s) (same : w'.trampoline t = w.trampoline t)
    (runner : w'.runners[i]? = w.runners[i]?) :
    w'.Follows i t mode (s.respond mode (.change fun _ => w'.bench)).2 := by
  obtain ⟨r, c, hr, rfl, hexecuted, hc, hmode, rfl⟩ := h
  refine ⟨r, c, runner ▸ hr, rfl, hexecuted, hc, hmode, ?_⟩
  rw [runOf, same]
  rfl

/-- A stride of the run. -/
theorem strides (h : w.Follows i t mode s) (hs : w.Staffed)
    (he : Effect w (.stride i) reply w') :
    w'.Follows i t mode (s.stride mode).2 := by
  obtain ⟨r, c, hr, rfl, hexecuted, hc, rfl, rfl⟩ := h
  cases he with
  | lacks _ stride =>
    have hdone := underway?_eq_none (stride i rfl) hr hc
    rw [StagedRun.stride, if_pos hdone]
    exact ⟨r, c, hr, rfl, hexecuted, hc, rfl, rfl⟩
  | refuses e _ stride => exact absurd rfl (stride i)
  | adds request => rcases request with hq | hq | ⟨_, hq⟩ <;> cases hq
  | binds t' memory request => rcases request with hq | ⟨hq, -⟩ <;> cases hq
  | strides _ r' c' runner course =>
    obtain rfl := Option.some.inj (hr.symm.trans runner)
    obtain rfl := Option.some.inj (hc.symm.trans course)
    exact setRun hr (hs.runner_lt hr) c.mode _

/-- A registration on the trampoline of the run. -/
theorem registers (h : w.Follows i t mode s) (hs : w.Staffed) {memory : Nat} {kind : JobKind}
    {job : Deed JobCommand JobCommand.Answer}
    (he : Effect w (.register t memory kind job) reply w') :
    w'.Follows i t mode (s.register kind ⟨memory, job⟩).2 := by
  obtain ⟨r, c, hr, rfl, hexecuted, hc, rfl, rfl⟩ := h
  cases he with
  | lacks register => exact absurd (hs.runner_lt hr) (register _ _ _ _ rfl)
  | refuses e register =>
    have herror : (w.runOf r c).trampoline.register kind ⟨memory, job⟩ = .error e :=
      register _ _ _ _ rfl
    rw [StagedRun.register, Trampoline.attempt_of_error herror]
    exact ⟨r, c, hr, rfl, hexecuted, hc, rfl, rfl⟩
  | adds request => rcases request with hq | hq | ⟨_, hq⟩ <;> cases hq
  | binds t' memory request => rcases request with hq | ⟨hq, -⟩ <;> cases hq
  | registers _ _ _ _ _ accepted sets bench runners =>
    have hok : (w.runOf r c).trampoline.register kind ⟨memory, job⟩ = .ok _ := accepted
    rw [StagedRun.register, Trampoline.attempt_of_ok hok]
    refine ⟨r, c, runners ▸ hr, rfl, hexecuted, hc, rfl, ?_⟩
    rw [runOf, sets.same, bench]
    rfl

/-- **What is asked of the workshop is an event for the run.** -/
theorem effect (h : w.Follows i t mode s) (hs : w.Staffed) {q : Request}
    (he : Effect w q reply w') :
    w'.Follows i t mode (s.respond mode ((⟨w, q, reply, w'⟩ : Episode).event i t)).2 := by
  have other : q ≠ .stride i → (∀ memory kind job, q ≠ .register t memory kind job) →
      w'.Follows i t mode (s.respond mode (.change fun _ => w'.bench)).2 := fun hstride hregister =>
    have ⟨same, runner⟩ := h.elsewhere hs he hstride hregister
    h.changes same runner
  cases q with
  | stride j =>
    rw [Episode.event]
    dsimp only
    split
    · next hj =>
      subst hj
      exact h.strides hs he
    · next hj => exact other (fun hq => hj (Request.stride.inj hq)) fun _ _ _ hq => nomatch hq
  | register t' memory kind job =>
    rw [Episode.event]
    dsimp only
    split
    · next ht =>
      subst ht
      exact h.registers hs he
    · next ht =>
      exact other (fun hq => nomatch hq) fun _ _ _ hq => ht (Request.register.inj hq).1
  | addTrampoline | addMemory | addRunner | useBench | bind | launch =>
    exact other (fun hq => nomatch hq) fun _ _ _ hq => nomatch hq

end Follows

/-- All that is asked of the workshop in a history is a run that others come between. -/
theorem follows_history {i t : Nat} {mode : RunMode} {s : StagedRun Placed.system}
    {es mid later : List Episode} {x : Episode} {qs : List Request} (h : Tracked w es)
    (hw : w.Follows i t mode s) (hsplit : w.history qs = mid ++ x :: later) :
    x.before.Follows i t mode (s.play mode (mid.map (·.event i t))) := by
  induction qs generalizing w es mid s with
  | nil => simp [history] at hsplit
  | cons q qs ih =>
    cases mid with
    | nil =>
      obtain ⟨rfl, -⟩ := List.cons.inj hsplit
      exact hw
    | cons y mid =>
      obtain ⟨rfl, hrest⟩ := List.cons.inj hsplit
      have hlast := ih (h.effect (effect_respond w q)) (hw.effect h.toStaffed (effect_respond w q))
        hrest
      exact hlast

end Workshop

end PartyGraph
