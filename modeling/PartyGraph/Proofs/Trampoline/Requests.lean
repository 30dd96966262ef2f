import Mathlib.Tactic.ByContra
import PartyGraph.Proofs.Trampoline.Strides
import PartyGraph.Trampoline.Workshop

/-!
# What can be asked of a workshop

Trampolines and runners are made, runners are bound, jobs are registered from outside, runs are
launched and take their strides, in any order: several runs may be under way at a time, and
anything may come between two strides of a run. A history of a workshop lists what is asked of it.

All that one request can do is said once (`Workshop.Effect`), and what histories keep is derived
from that.

## Main definitions

* `Workshop.Request`, `Workshop.respond`: what can be asked of a workshop, and its replies.
* `Workshop.Episode`, `Workshop.history`: requests with the workshops that they find and leave.
* `Workshop.Effect`: all that a request can do.
* `Workshop.Staffed`: each runner has a trampoline of its own.

## Main results

* `Workshop.effect_respond`: the cases of a request.
* `Workshop.Staffed.binds`, `Workshop.Staffed.setRun`: runners keep their trampolines.
-/

namespace PartyGraph

namespace Workshop

/-! ### Requests -/

/-- What can be asked of a workshop. -/
inductive Request where
  | addTrampoline
  | addMemory
  | addRunner
  /-- The memories and the log may be used from outside in any way. -/
  | useBench (change : Bench → Bench)
  | bind (t memory : Nat)
  | register (t memory : Nat) (kind : JobKind) (job : Deed JobCommand JobCommand.Answer)
  | launch (runner : Nat) (mode : RunMode)
  /-- The run of a runner goes on by a stride. -/
  | stride (runner : Nat)

/-- The reply to a request; `missing` when it is about something that does not exist, or about a
run that is not under way, and an outcome when a run is over with it. -/
inductive Reply where
  | done
  | refused (e : TrampolineError)
  | outcome (o : Run.Outcome)
  | missing

/-- A runner with its run, if it has one that is not over. -/
def underway? (w : Workshop) (i : Nat) : Option (Runner × Course) :=
  match w.runners[i]? with
  | none => none
  | some r =>
    match r.course with
    | none => none
    | some c => if (w.runOf r c).isDone then none else some (r, c)

/-- The reply to a request, and the workshop after it. -/
def respond (w : Workshop) : Request → Reply × Workshop
  | .addTrampoline => (.done, w.addTrampoline)
  | .addMemory => (.done, w.addMemory)
  | .addRunner => (.done, w.addRunner)
  | .useBench change => (.done, { w with bench := change w.bench })
  | .bind t memory =>
    if t < w.trampolines.size then
      match w.bind t memory with
      | .ok w' => (.done, w')
      | .error e => (.refused e, w)
    else (.missing, w)
  | .register t memory kind job =>
    if t < w.trampolines.size then
      match w.register t memory kind job with
      | .ok w' => (.done, w')
      | .error e => (.refused e, w)
    else (.missing, w)
  | .launch i mode =>
    match w.runners[i]? with
    | none => (.missing, w)
    | some r =>
      match w.launch i r mode with
      | .ok w' => (.done, w')
      | .error e => (.refused e, w)
  | .stride i =>
    match w.underway? i with
    | none => (.missing, w)
    | some (r, c) =>
      let s := ((w.runOf r c).stride c.mode).2
      (if s.isDone then .outcome s.outcome else .done, w.stride i r c)

/-- The workshop after requests. -/
def serve (w : Workshop) : List Request → Workshop
  | [] => w
  | q :: rest => (w.respond q).2.serve rest

/-- A request with its reply, and the workshops that it finds and leaves. -/
structure Episode where
  before : Workshop
  request : Request
  reply : Reply
  after : Workshop

/-- The requests of a history. -/
def history (w : Workshop) : List Request → List Episode
  | [] => []
  | q :: rest => ⟨w, q, (w.respond q).1, (w.respond q).2⟩ :: (w.respond q).2.history rest

namespace Episode

/-- The jobs of a kind that the request puts on a trampoline from outside. -/
def accepted (e : Episode) (t : Nat) (k : JobKind) : List Placed :=
  match e.request, e.reply with
  | .register t' memory kind job, .done => if t' = t ∧ kind = k then [⟨memory, job⟩] else []
  | _, _ => []

/-- The trampoline that the request binds to a new runner. -/
def claims? (e : Episode) : Option Nat :=
  match e.request, e.reply with
  | .addRunner, .done => some e.before.trampolines.size
  | .bind t _, .done => some t
  | _, _ => none

/-- The runner whose run is launched at the request, if one is. -/
def launched? (e : Episode) : Option Runner :=
  match e.request, e.reply with
  | .launch i _, .done => e.before.runners[i]?
  | _, _ => none

/-- Whether a run of a trampoline is launched at the request. -/
def launches (t : Nat) (e : Episode) : Bool := e.launched?.any (·.trampoline == t)

/-- The runner whose run is over with the request, if one is. -/
def ended? (e : Episode) : Option Runner :=
  match e.request, e.reply with
  | .stride i, .outcome _ => e.before.runners[i]?
  | _, _ => none

/-- What the request is for the run of runner `i` on trampoline `t`. -/
def event (i t : Nat) (e : Episode) : StagedRun.Event Placed Bench :=
  match e.request with
  | .stride j => if j = i then .stride else .change fun _ => e.after.bench
  | .register t' memory kind job =>
    if t' = t then .register kind ⟨memory, job⟩ else .change fun _ => e.after.bench
  | _ => .change fun _ => e.after.bench

end Episode

/-- The jobs of a kind that a history puts on a trampoline from outside. -/
def accepted (t : Nat) (k : JobKind) (es : List Episode) : List Placed :=
  es.flatMap (·.accepted t k)

/-- The episodes of a history in which a run of a trampoline is launched. -/
def launchesOf (t : Nat) (es : List Episode) : List Episode := es.filter (·.launches t)

/-! ### What a request does to trampolines and runners -/

variable {w w' : Workshop}

/-- Whether two workshops differ in no trampoline but one, and what that one is in the second. -/
structure Sets (w : Workshop) (t : Nat) (c : Trampoline Placed) (w' : Workshop) : Prop where
  size : w'.trampolines.size = w.trampolines.size
  same : w'.trampoline t = c
  other : ∀ {t'}, t' ≠ t → w'.trampoline t' = w.trampoline t'

theorem Sets.claimed {t : Nat} {c : Trampoline Placed} (h : w.Sets t c w')
    (hc : c.claimed = (w.trampoline t).claimed) (t' : Nat) :
    (w'.trampoline t').claimed = (w.trampoline t').claimed := by
  by_cases ht : t' = t
  · rw [ht, h.same, hc]
  · rw [h.other ht]

theorem sets_setIfInBounds {t : Nat} (h : t < w.trampolines.size) (c : Trampoline Placed)
    (b : Bench) (rs : Array Runner) :
    w.Sets t c ⟨b, w.trampolines.setIfInBounds t c, rs⟩ where
  size := Array.size_setIfInBounds ..
  same := by simp [trampoline, h]
  other ht := by simp [trampoline, Ne.symm ht]

@[simp] theorem trampoline_addTrampoline (w : Workshop) (t : Nat) :
    w.addTrampoline.trampoline t = w.trampoline t := by
  simp only [trampoline, addTrampoline, Array.getD_eq_getD_getElem?, Array.getElem?_push]
  by_cases ht : t = w.trampolines.size <;> simp [ht]

theorem bind_eq_ok {t memory : Nat} (hlt : t < w.trampolines.size)
    (h : w.bind t memory = .ok w') :
    (w.trampoline t).claimed = false ∧ w.Sets t { w.trampoline t with claimed := true } w' ∧
      w'.runners = w.runners.push ⟨t, memory, false, none⟩ := by
  unfold bind Trampoline.claim at h
  cases hc : (w.trampoline t).claimed with
  | true => simp [hc] at h
  | false =>
    simp only [hc, Bool.false_eq_true, ↓reduceIte, Except.ok.injEq] at h
    subst h
    exact ⟨rfl, sets_setIfInBounds hlt _ _ _, rfl⟩

theorem bind_of_claimed {t : Nat} (h : (w.trampoline t).claimed = true) (memory : Nat) :
    w.bind t memory = .error .alreadyClaimed := by
  simp [bind, Trampoline.claim, h]

/-- A runner with a trampoline of its own is bound to it like any other. -/
theorem bind_addRunner (w : Workshop) :
    w.addTrampoline.addMemory.bind w.trampolines.size w.bench.memories.size
      = .ok w.addRunner := by
  have hnew : (w.addTrampoline.addMemory.trampoline w.trampolines.size).claimed = false := by
    rw [show w.addTrampoline.addMemory.trampoline w.trampolines.size
        = w.addTrampoline.trampoline w.trampolines.size from rfl, trampoline_addTrampoline]
    simp [trampoline, Trampoline.empty]
  rw [addRunner]
  cases h : w.addTrampoline.addMemory.bind w.trampolines.size w.bench.memories.size with
  | ok bound => simp
  | error e => simp [bind, Trampoline.claim, hnew] at h

theorem launch_of_executed {r : Runner} (h : r.executed = true) (i : Nat) (mode : RunMode) :
    w.launch i r mode = .error .alreadyExecuted := by
  simp [launch, h]

/-- A runner and its run, as they are in a workshop. -/
theorem underway?_eq_some {i : Nat} {r : Runner} {c : Course} (h : w.underway? i = some (r, c)) :
    w.runners[i]? = some r ∧ r.course = some c ∧ (w.runOf r c).isDone = false := by
  rw [underway?] at h
  split at h
  · cases h
  · next r' hr =>
    split at h
    · cases h
    · next c' hc =>
      split at h
      · cases h
      · next hd =>
        cases h
        exact ⟨hr, hc, by simpa using hd⟩

theorem underway?_eq_none {i : Nat} {r : Runner} {c : Course} (h : w.underway? i = none)
    (hr : w.runners[i]? = some r) (hc : r.course = some c) : (w.runOf r c).isDone = true := by
  by_contra hd
  have hsome : w.underway? i = some (r, c) := by
    simp [underway?, hr, hc, hd]
  rw [hsome] at h
  cases h

/-- What a request does to the workshop `w`, with its reply. -/
inductive Effect (w : Workshop) : Request → Reply → Workshop → Prop
  /-- What the request is about does not exist, or is not under way. -/
  | lacks {q : Request}
      (register : ∀ t memory kind job, q = .register t memory kind job →
        ¬ t < w.trampolines.size)
      (stride : ∀ i, q = .stride i → w.underway? i = none) : Effect w q .missing w
  /-- The request is refused. -/
  | refuses {q : Request} (e : TrampolineError)
      (register : ∀ t memory kind job, q = .register t memory kind job →
        (w.trampoline t).register kind ⟨memory, job⟩ = .error e)
      (stride : ∀ i, q ≠ .stride i) : Effect w q (.refused e) w
  /-- Something is added or done beside the trampolines that there are. -/
  | adds {q : Request} {w' : Workshop}
      (request : q = .addTrampoline ∨ q = .addMemory ∨ ∃ change, q = .useBench change)
      (size : w.trampolines.size ≤ w'.trampolines.size)
      (trampoline : ∀ t, w'.trampoline t = w.trampoline t) (runners : w'.runners = w.runners) :
      Effect w q .done w'
  /-- A runner is bound to a trampoline, which may be new. -/
  | binds {q : Request} (t memory : Nat) {w' : Workshop}
      (request : q = .bind t memory ∨ q = .addRunner ∧ t = w.trampolines.size)
      (free : (w.trampoline t).claimed = false) (lt : t < w'.trampolines.size)
      (size : w.trampolines.size ≤ w'.trampolines.size)
      (same : w'.trampoline t = { w.trampoline t with claimed := true })
      (other : ∀ t', t' ≠ t → w'.trampoline t' = w.trampoline t')
      (runners : w'.runners = w.runners.push ⟨t, memory, false, none⟩) : Effect w q .done w'
  /-- A job is registered. -/
  | registers (t memory : Nat) (kind : JobKind) (job : Deed JobCommand JobCommand.Answer)
      {c : Trampoline Placed} {w' : Workshop} (lt : t < w.trampolines.size)
      (accepted : (w.trampoline t).register kind ⟨memory, job⟩ = .ok c) (sets : w.Sets t c w')
      (bench : w'.bench = w.bench) (runners : w'.runners = w.runners) :
      Effect w (.register t memory kind job) .done w'
  /-- A run is launched. -/
  | launches (i : Nat) (r : Runner) (mode : RunMode) (runner : w.runners[i]? = some r)
      (fresh : r.executed = false) :
      Effect w (.launch i mode) .done
        (w.setRun i r mode (.start Placed.system (w.trampoline r.trampoline) w.bench))
  /-- A run goes on. -/
  | strides (i : Nat) (r : Runner) (c : Course) (runner : w.runners[i]? = some r)
      (course : r.course = some c) (going : (w.runOf r c).isDone = false)
      {reply : Reply} (told : reply =
        let s := ((w.runOf r c).stride c.mode).2
        if s.isDone then .outcome s.outcome else .done) :
      Effect w (.stride i) reply (w.stride i r c)

theorem effect_bind {q : Request} {t memory : Nat} {w₁ : Workshop}
    (request : q = .bind t memory ∨ q = .addRunner ∧ t = w.trampolines.size)
    (size : w.trampolines.size ≤ w₁.trampolines.size)
    (trampoline : ∀ t, w₁.trampoline t = w.trampoline t) (runners : w₁.runners = w.runners)
    (hlt : t < w₁.trampolines.size) (h : w₁.bind t memory = .ok w') : Effect w q .done w' := by
  obtain ⟨free, sets, hrunners⟩ := bind_eq_ok hlt h
  rw [trampoline] at free sets
  exact .binds t memory request free (by rwa [sets.size]) (by rwa [sets.size]) sets.same
    (fun t' ht => (sets.other ht).trans (trampoline t')) (runners ▸ hrunners)

/-- **All that a request can do.** -/
theorem effect_respond (w : Workshop) (q : Request) :
    Effect w q (w.respond q).1 (w.respond q).2 := by
  cases q with
  | addTrampoline =>
    exact .adds (.inl rfl) (by simp [respond, addTrampoline]) (trampoline_addTrampoline w) rfl
  | addMemory => exact .adds (.inr (.inl rfl)) (Nat.le_refl _) (fun _ => rfl) rfl
  | useBench change => exact .adds (.inr (.inr ⟨_, rfl⟩)) (Nat.le_refl _) (fun _ => rfl) rfl
  | addRunner =>
    have htrampoline : ∀ t, w.addTrampoline.addMemory.trampoline t = w.trampoline t :=
      trampoline_addTrampoline w
    exact effect_bind (.inr ⟨rfl, rfl⟩) (by simp [addTrampoline, addMemory]) htrampoline rfl
      (by simp [addTrampoline, addMemory]) (bind_addRunner w)
  | bind t memory =>
    rw [respond]
    split
    · next hlt =>
      split
      · next w' hb => exact effect_bind (.inl rfl) (Nat.le_refl _) (fun _ => rfl) rfl hlt hb
      · exact .refuses _ (fun _ _ _ _ hq => nomatch hq) fun _ hq => nomatch hq
    · exact .lacks (fun _ _ _ _ hq => nomatch hq) fun _ hq => nomatch hq
  | register t memory kind job =>
    rw [respond]
    split
    · next hlt =>
      rw [register]
      cases ht : (w.trampoline t).register kind ⟨memory, job⟩ with
      | ok c => exact .registers t memory kind job hlt ht (sets_setIfInBounds hlt _ _ _) rfl rfl
      | error e =>
        refine .refuses e (fun t' memory' kind' job' hq => ?_) fun _ hq => nomatch hq
        cases hq
        exact ht
    · next hlt =>
      refine .lacks (fun t' memory' kind' job' hq => ?_) fun _ hq => nomatch hq
      cases hq
      exact hlt
  | launch i mode =>
    rw [respond]
    split
    · exact .lacks (fun _ _ _ _ hq => nomatch hq) fun _ hq => nomatch hq
    · next r hr =>
      cases hx : r.executed with
      | false =>
        have hlaunch : w.launch i r mode = .ok
            (w.setRun i r mode (.start Placed.system (w.trampoline r.trampoline) w.bench)) := by
          simp [launch, hx]
        rw [hlaunch]
        exact .launches i r mode hr hx
      | true =>
        rw [launch_of_executed hx]
        exact .refuses _ (fun _ _ _ _ hq => nomatch hq) fun _ hq => nomatch hq
  | stride i =>
    rw [respond]
    split
    · next hnone =>
      refine .lacks (fun _ _ _ _ hq => nomatch hq) fun j hq => ?_
      cases hq
      exact hnone
    · next r c hsome =>
      obtain ⟨hr, hc, hgoing⟩ := underway?_eq_some hsome
      exact .strides i r c hr hc hgoing rfl

theorem effect_of_respond {q : Request} {reply : Reply} (h : w.respond q = (reply, w')) :
    Effect w q reply w' := by
  have := effect_respond w q
  rwa [h] at this

/-- What is refused changes nothing. -/
theorem Effect.eq_of_refused {q : Request} {e : TrampolineError} (h : Effect w q (.refused e) w') :
    w' = w := by
  generalize hreply : Reply.refused e = reply at h
  cases h with
  | refuses => rfl
  | lacks | adds | binds | registers | launches => cases hreply
  | strides i r c _ _ _ told =>
    rw [← hreply] at told
    dsimp only at told
    split at told <;> cases told

/-! ### Runners and their trampolines -/

section SetRun

variable {i : Nat} {r : Runner} {mode : RunMode} {s : StagedRun Placed.system}

theorem sets_setRun (h : r.trampoline < w.trampolines.size) (i : Nat) (mode : RunMode)
    (s : StagedRun Placed.system) : w.Sets r.trampoline s.trampoline (w.setRun i r mode s) :=
  sets_setIfInBounds h _ _ _

theorem runners_setRun_same {r₀ : Runner} (h : w.runners[i]? = some r₀) :
    (w.setRun i r mode s).runners[i]?
      = some { r with executed := true, course := some ⟨mode, s.performed, s.stage⟩ } :=
  Array.getElem?_setIfInBounds_self_of_lt (Array.getElem?_eq_some_iff.mp h).1

theorem runners_setRun_of_ne {j : Nat} (h : j ≠ i) :
    (w.setRun i r mode s).runners[j]? = w.runners[j]? :=
  Array.getElem?_setIfInBounds_ne (Ne.symm h)

end SetRun

/-- Whether each runner has a trampoline of its own, which is claimed. -/
structure Staffed (w : Workshop) : Prop where
  runner_lt : ∀ {i : Nat} {r : Runner}, w.runners[i]? = some r →
    r.trampoline < w.trampolines.size
  claimed : ∀ {i : Nat} {r : Runner}, w.runners[i]? = some r →
    (w.trampoline r.trampoline).claimed = true
  unique : ∀ {i j : Nat} {r r' : Runner}, w.runners[i]? = some r → w.runners[j]? = some r' →
    r.trampoline = r'.trampoline → i = j

namespace Staffed

/-- It matters which trampolines the runners have, and which trampolines are claimed. -/
theorem congr (h : w.Staffed) (hsize : w.trampolines.size ≤ w'.trampolines.size)
    (hclaimed : ∀ t, (w'.trampoline t).claimed = (w.trampoline t).claimed)
    (hrunners : ∀ i : Nat, (w'.runners[i]?).map Runner.trampoline
      = (w.runners[i]?).map Runner.trampoline) : w'.Staffed := by
  have before : ∀ {i : Nat} {r : Runner}, w'.runners[i]? = some r →
      ∃ r₀, w.runners[i]? = some r₀ ∧ r₀.trampoline = r.trampoline := fun {i r} hr =>
    Option.map_eq_some_iff.mp (by rw [← hrunners, hr]; rfl)
  constructor
  case runner_lt =>
    intro i r hr
    obtain ⟨r₀, hr₀, h₀⟩ := before hr
    exact h₀ ▸ Nat.lt_of_lt_of_le (h.runner_lt hr₀) hsize
  case claimed =>
    intro i r hr
    obtain ⟨r₀, hr₀, h₀⟩ := before hr
    rw [hclaimed, ← h₀]
    exact h.claimed hr₀
  case unique =>
    intro i j r r' hr hr' heq
    obtain ⟨r₀, hr₀, h₀⟩ := before hr
    obtain ⟨r₁, hr₁, h₁⟩ := before hr'
    exact h.unique hr₀ hr₁ (h₀.trans (heq.trans h₁.symm))

/-- A runner is bound to a trampoline that was not claimed, so to one of its own. -/
theorem binds (h : w.Staffed) {t memory : Nat} (free : (w.trampoline t).claimed = false)
    (lt : t < w'.trampolines.size) (size : w.trampolines.size ≤ w'.trampolines.size)
    (same : w'.trampoline t = { w.trampoline t with claimed := true })
    (other : ∀ t', t' ≠ t → w'.trampoline t' = w.trampoline t')
    (runners : w'.runners = w.runners.push ⟨t, memory, false, none⟩) : w'.Staffed := by
  -- The runners are those before and the new one.
  have hcases : ∀ {i r}, w'.runners[i]? = some r →
      w.runners[i]? = some r ∧ r.trampoline ≠ t ∨
        i = w.runners.size ∧ r = ⟨t, memory, false, none⟩ := by
    intro i r hr
    rw [runners, Array.getElem?_push] at hr
    split at hr
    · next hi => exact .inr ⟨hi, (Option.some.inj hr).symm⟩
    · refine .inl ⟨hr, ?_⟩
      rintro rfl
      rw [h.claimed hr] at free
      cases free
  constructor
  case runner_lt =>
    intro i r hr
    obtain ⟨hr, -⟩ | ⟨-, rfl⟩ := hcases hr
    · exact Nat.lt_of_lt_of_le (h.runner_lt hr) size
    · exact lt
  case claimed =>
    intro i r hr
    obtain ⟨hr, hne⟩ | ⟨-, rfl⟩ := hcases hr
    · rw [other _ hne]
      exact h.claimed hr
    · rw [same]
  case unique =>
    intro i j r r' hr hr' heq
    obtain ⟨hr, hne⟩ | ⟨hi, rfl⟩ := hcases hr <;> obtain ⟨hr', hne'⟩ | ⟨hj, rfl⟩ := hcases hr'
    · exact h.unique hr hr' heq
    · exact absurd heq hne
    · exact absurd heq.symm hne'
    · rw [hi, hj]

theorem setRun (h : w.Staffed) {i : Nat} {r : Runner} (hr : w.runners[i]? = some r)
    (mode : RunMode) {s : StagedRun Placed.system}
    (hs : s.trampoline.claimed = (w.trampoline r.trampoline).claimed) :
    (w.setRun i r mode s).Staffed := by
  have hset := sets_setRun (h.runner_lt hr) i mode s
  refine h.congr (Nat.le_of_eq hset.size.symm) (hset.claimed hs) fun j => ?_
  by_cases hj : j = i
  · subst hj
    rw [runners_setRun_same hr, hr]
    rfl
  · rw [runners_setRun_of_ne hj]

end Staffed

end Workshop

end PartyGraph
