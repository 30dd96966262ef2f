import Mathlib.Tactic.ByContra
import PartyGraph.Proofs.Trampoline.Accounting
import PartyGraph.Trampoline.Stride

/-!
# Runs that others come between

Here the strides of a run are mixed with what others do meanwhile: they register jobs of any kind
and change the world (`StagedRun.Event`). Nothing is said about who they are or why they do it.

A run keeps the account of what it accepted also then, except in one place. When it has found the
queue of its phase empty it lets go of the lock, and the next thing that it does is to enter another
phase, which empties that queue. A job that comes in between is still accepted, since the phase is
not left yet, and it is dropped (`StagedRun.late`). Nothing of this kind happens to a job that one
of the run's own jobs registers, for a run is at none of its jobs then, and nothing to a job whose
phase is still to come. So besides the jobs that a run may give up, it loses those that are late
and no others, and it loses none exactly if there are none.

## Main definitions

* `StagedRun.Event`, `StagedRun.respond`, `StagedRun.play`: what may happen, and what comes of it.
* `StagedRun.accepted`, `StagedRun.late`: the jobs accepted in the course of events, and those
  among them that come when their phase is going to be left.
* `StagedRun.Effect`: all that an event can do.
* `StagedRun.Books`: the account of a run among others.
* `StagedRun.Settles`: what holds of a run that is over.

## Main results

* `StagedRun.effect_respond`: the cases of an event.
* `StagedRun.Books.effect`: every event keeps the account.
* `StagedRun.settles_play`: a run that is over has settled its account, but for the late jobs.
-/

namespace PartyGraph

/-! ### Attempts -/

namespace Trampoline

variable {J : Type}

theorem attempt_of_ok {t t' : Trampoline J} {kind : JobKind} {job : J}
    (h : t.register kind job = .ok t') : t.attempt kind job = (⟨kind, job, none⟩, t') := by
  simp [attempt, h]

theorem attempt_of_error {t : Trampoline J} {kind : JobKind} {job : J} {e : TrampolineError}
    (h : t.register kind job = .error e) : t.attempt kind job = (⟨kind, job, some e⟩, t) := by
  simp [attempt, h]

variable (t : Trampoline J) (kind : JobKind) (job : J)

/-- An attempt adds the job to its queue if it is accepted. -/
theorem queue_attempt (k : JobKind) :
    (t.attempt kind job).2.queue k
      = t.queue k ++ Registration.accepted k [(t.attempt kind job).1] := by
  cases h : t.register kind job with
  | ok t' =>
    rw [attempt_of_ok h, Script.queue_register h]
    by_cases hk : k = kind
    · simp [Registration.accepted, Registration.isAccepted, hk]
    · simp [Registration.accepted, hk, Ne.symm hk]
  | error e =>
    rw [attempt_of_error h]
    simp [Registration.accepted, Registration.isAccepted]

theorem refusal_attempt :
    (t.attempt kind job).1.refusal = t.phase.refusal (t.attempt kind job).1.kind := by
  cases h : t.register kind job with
  | ok t' =>
    rw [attempt_of_ok h]
    exact (register_eq_ok h).1.symm
  | error e =>
    rw [attempt_of_error h]
    exact (register_eq_error h).symm

@[simp] theorem phase_attempt : (t.attempt kind job).2.phase = t.phase := by
  cases h : t.register kind job with
  | ok t' =>
    rw [attempt_of_ok h]
    exact Script.phase_register h
  | error e => rw [attempt_of_error h]

@[simp] theorem claimed_attempt : (t.attempt kind job).2.claimed = t.claimed := by
  cases h : t.register kind job with
  | ok t' =>
    rw [attempt_of_ok h, (register_eq_ok h).2]
    exact claimed_withQueue ..
  | error e => rw [attempt_of_error h]

end Trampoline

variable {J W : Type} {sys : JobSystem J W} {mode : RunMode}

namespace RunStage

/-- The jobs of the round that are not performed yet. -/
def jobs : RunStage sys → List J
  | performing j _ _ rest => j :: rest
  | polling | leaving => []

/-- The registrations that the job under way has tried. -/
def tried : RunStage sys → List (Registration J)
  | performing _ _ tried _ => tried
  | polling | leaving => []

@[simp] theorem jobs_polling : (polling : RunStage sys).jobs = [] := rfl

@[simp] theorem jobs_leaving : (leaving : RunStage sys).jobs = [] := rfl

@[simp] theorem jobs_ofRound (js : List J) : (ofRound js : RunStage sys).jobs = js := by
  cases js <;> rfl

@[simp] theorem tried_ofRound (js : List J) : (ofRound js : RunStage sys).tried = [] := by
  cases js <;> rfl

@[simp] theorem isLeaving_ofRound (js : List J) :
    (ofRound js : RunStage sys).isLeaving = false := by
  cases js <;> rfl

end RunStage

namespace StagedRun

/-! ### Events -/

/-- What happens at once. -/
inductive Event (J W : Type) where
  /-- The run goes on. -/
  | stride
  /-- A job is registered from outside. -/
  | register (kind : JobKind) (job : J)
  /-- The world is changed from outside. -/
  | change (f : W → W)

/-- What comes of an event, with the registration that is tried if one is. -/
def respond (mode : RunMode) (s : StagedRun sys) :
    Event J W → Option (Registration J) × StagedRun sys
  | .stride => s.stride mode
  | .register kind job => s.register kind job
  | .change f => (none, { s with world := f s.world })

/-- The run after events. -/
def play (mode : RunMode) (s : StagedRun sys) : List (Event J W) → StagedRun sys
  | [] => s
  | e :: rest => play mode (s.respond mode e).2 rest

/-- The jobs of a kind that are accepted at an event. -/
def acceptedAt (mode : RunMode) (s : StagedRun sys) (e : Event J W) (k : JobKind) : List J :=
  Registration.accepted k (s.respond mode e).1.toList

/-- The jobs of a kind that are accepted in the course of events, in order. -/
def accepted (mode : RunMode) (k : JobKind) (s : StagedRun sys) : List (Event J W) → List J
  | [] => []
  | e :: rest => s.acceptedAt mode e k ++ accepted mode k (s.respond mode e).2 rest

/-- Whether a kind is that of the present phase and its jobs are not looked for any more. -/
def misses (s : StagedRun sys) (k : JobKind) : Bool := s.stage.isLeaving && s.phase = k.phase

/-- The jobs of a kind that are accepted in the course of events when they are not looked for any
more. -/
def late (mode : RunMode) (k : JobKind) (s : StagedRun sys) : List (Event J W) → List J
  | [] => []
  | e :: rest =>
    (if s.misses k then s.acceptedAt mode e k else []) ++ late mode k (s.respond mode e).2 rest

theorem play_append (s : StagedRun sys) (es es' : List (Event J W)) :
    s.play mode (es ++ es') = (s.play mode es).play mode es' := by
  induction es generalizing s with
  | nil => rfl
  | cons e es ih => exact ih _

/-! ### What an event can do -/

/-- Whether a run is `s` with the world changed at most, and the script of the job under way. -/
structure Alike (s s' : StagedRun sys) : Prop where
  performed : s'.performed = s.performed
  jobs : s'.stage.jobs = s.stage.jobs
  isLeaving : s'.stage.isLeaving = s.stage.isLeaving

/-- What an event does to the run `s`, with the registration that is tried. -/
inductive Effect (mode : RunMode) (s : StagedRun sys) :
    Option (Registration J) → StagedRun sys → Prop
  /-- Nothing but to the world and the script. -/
  | still {s'} (alike : s.Alike s') (trampoline : s'.trampoline = s.trampoline)
      (tried : s'.stage.tried = s.stage.tried) : Effect mode s none s'
  /-- A job is registered, from the job under way or from outside. -/
  | tries (kind : JobKind) (job : J) {s'} (alike : s.Alike s')
      (trampoline : s'.trampoline = (s.trampoline.attempt kind job).2)
      (tried : ∀ g ∈ s'.stage.tried,
        g ∈ s.stage.tried ∨ g = (s.trampoline.attempt kind job).1) :
      Effect mode s (some (s.trampoline.attempt kind job).1) s'
  /-- No job is found. -/
  | finds (jobs : s.stage.jobs = []) (before : s.stage.isLeaving = false) (empty : s.round = []) :
      Effect mode s none { s with stage := .leaving }
  /-- A round is taken. -/
  | takes (jobs : s.stage.jobs = []) (before : s.stage.isLeaving = false) :
      Effect mode s none
        { s with trampoline := s.trampoline.takeRound.2, stage := .ofRound s.round }
  /-- A job is done. -/
  | concludes (e : Performed J) (rest : List J) (jobs : s.stage.jobs = e.job :: rest)
      (before : s.stage.isLeaving = false)
      (phase : e.phase = s.phase) (tried : e.registrations = s.stage.tried) :
      Effect mode s none (s.conclude mode e rest)
  /-- The next phase is entered. -/
  | leaves (going : s.isDone = false) (before : s.stage = .leaving) :
      Effect mode s none ⟨s.advance, .polling⟩

theorem effect_stride (s : StagedRun sys) :
    Effect mode s (s.stride mode).1 (s.stride mode).2 := by
  rw [stride]
  split
  · exact .still ⟨rfl, rfl, rfl⟩ rfl rfl
  · next hgoing =>
    obtain ⟨r, stage⟩ := s
    cases stage with
    | polling =>
      dsimp only
      split
      · next t htake => exact .finds rfl rfl (congrArg Prod.fst htake)
      · next jobs t _ htake =>
        have takes : Effect mode (⟨r, .polling⟩ : StagedRun sys) none _ := .takes rfl rfl
        simpa only [Run.round, htake] using takes
    | performing j script tried rest =>
      cases script with
      | finish ending => exact .concludes _ rest rfl rfl rfl rfl
      | register kind job next =>
        exact .tries kind job ⟨rfl, rfl, rfl⟩ rfl fun g hg => by
          simpa [RunStage.tried] using hg
      | look next => exact .still ⟨rfl, rfl, rfl⟩ rfl rfl
      | ask c next => exact .still ⟨rfl, rfl, rfl⟩ rfl rfl
    | leaving => exact .leaves (by simpa using hgoing) rfl

/-- **All that an event can do.** -/
theorem effect_respond (s : StagedRun sys) (e : Event J W) :
    Effect mode s (s.respond mode e).1 (s.respond mode e).2 := by
  cases e with
  | stride => exact effect_stride s
  | register kind job => exact .tries kind job ⟨rfl, rfl, rfl⟩ rfl fun g hg => .inl hg
  | change f => exact .still ⟨rfl, rfl, rfl⟩ rfl rfl

/-- A run neither claims its trampoline nor releases it. -/
theorem claimed_stride (s : StagedRun sys) (mode : RunMode) :
    (s.stride mode).2.trampoline.claimed = s.trampoline.claimed := by
  have h : Effect mode s _ _ := effect_stride s
  generalize (s.stride mode).1 = g?, (s.stride mode).2 = s' at h
  cases h with
  | still _ trampoline => rw [trampoline]
  | tries kind job _ trampoline => rw [trampoline, Trampoline.claimed_attempt]
  | finds | concludes => rfl
  | takes => exact Trampoline.claimed_takeRound _
  | leaves => exact Trampoline.claimed_enter ..

theorem Alike.misses {s s' : StagedRun sys} (h : s.Alike s') (hp : s'.phase = s.phase)
    (k : JobKind) : s'.misses k = s.misses k := by
  rw [StagedRun.misses, StagedRun.misses, h.isLeaving, hp]

theorem Alike.performedIn {s s' : StagedRun sys} (h : s.Alike s') (p : Phase) :
    s'.performedIn p = s.performedIn p := by
  rw [Run.performedIn, Run.performedIn, h.performed]

theorem Alike.failedIn {s s' : StagedRun sys} (h : s.Alike s') (p : Phase) :
    s'.failedIn p = s.failedIn p := by
  rw [Run.failedIn, Run.failedIn, Run.failuresIn, Run.failuresIn, h.performed]

theorem misses_of_not_leaving {s : StagedRun sys} (h : s.stage.isLeaving = false) (k : JobKind) :
    s.misses k = false := by
  rw [misses, h, Bool.false_and]

theorem phase_of_misses {s : StagedRun sys} {k : JobKind} (h : s.misses k = true) :
    s.phase = k.phase :=
  of_decide_eq_true (Bool.and_eq_true_iff.mp h).2

section Conclude

variable (mode) (s : StagedRun sys) (e : Performed J) (rest : List J)

@[simp] theorem phase_conclude : (s.conclude mode e rest).phase = s.phase := rfl

theorem performed_conclude : (s.conclude mode e rest).performed = s.performed ++ [e] := rfl

/-- The rest of a round is given up at a failure, in a run that is to stop then. -/
theorem stage_conclude :
    (s.conclude mode e rest).stage = .leaving ∧
        mode = .untilFailure ∧ s.phase = .actions ∧
        (s.conclude mode e rest).failedIn .actions = true ∨
      (s.conclude mode e rest).stage = .ofRound rest ∧
        (mode = .untilFailure → s.phase = .actions →
          (s.conclude mode e rest).failedIn .actions = false) := by
  have hstage : (s.conclude mode e rest).stage =
      if s.halts mode && (s.conclude mode e rest).failedIn .actions then .leaving
      else .ofRound rest := rfl
  rw [hstage]
  split
  · next h =>
    obtain ⟨hhalts, hfailed⟩ := Bool.and_eq_true_iff.mp h
    obtain ⟨hmode, hp⟩ := Bool.and_eq_true_iff.mp hhalts
    exact .inl ⟨rfl, of_decide_eq_true hmode, of_decide_eq_true hp, hfailed⟩
  · next h =>
    refine .inr ⟨rfl, fun hmode hp => ?_⟩
    simpa [Run.halts, hmode, hp] using h

end Conclude

variable {s s' : StagedRun sys} {g? : Option (Registration J)}

/-! ### The order of what is performed -/

/-- Whether what a run has performed is in order, and a run that is to stop at a failure has done
so. -/
structure Orderly (mode : RunMode) (s : StagedRun sys) : Prop where
  sequenced : s.toRun.Sequenced
  tried : ∀ g ∈ s.stage.tried, g.refusal = s.phase.refusal g.kind
  stops : mode = .untilFailure → s.StopsAtFailure
  unfailed : mode = .untilFailure → s.phase = .actions → s.stage.isLeaving = false →
    s.failedIn .actions = false

theorem Orderly.start {t : Trampoline J} (h : t.phase = .actions) (w : W) :
    (start sys t w).Orderly mode where
  sequenced := .start h w
  tried _ hg := absurd hg List.not_mem_nil
  stops _ _ he := absurd he List.not_mem_nil
  unfailed _ _ _ := rfl

/-- The phase is the same, and what was performed. -/
theorem Orderly.alike (h : s.Orderly mode) (ha : s.Alike s') (hp : s'.phase = s.phase)
    (tried : ∀ g ∈ s'.stage.tried, g.refusal = s.phase.refusal g.kind) : s'.Orderly mode where
  sequenced := h.sequenced.congr hp ha.performed
  tried := hp ▸ tried
  stops hmode := by
    unfold Run.StopsAtFailure
    rw [ha.performed]
    exact h.stops hmode
  unfailed hmode hactions hgoing := by
    rw [ha.failedIn]
    exact h.unfailed hmode (hp ▸ hactions) (ha.isLeaving ▸ hgoing)

theorem Orderly.concludes (h : s.Orderly mode) {e : Performed J} {rest : List J}
    (before : s.stage.isLeaving = false) (phase : e.phase = s.phase)
    (tried : e.registrations = s.stage.tried) : (s.conclude mode e rest).Orderly mode where
  sequenced := h.sequenced.concat rfl (performed_conclude mode s e rest) phase fun g hg => by
    rw [phase]
    exact h.tried g (tried ▸ hg)
  tried g hg := by
    obtain ⟨hstage, -⟩ | ⟨hstage, -⟩ := stage_conclude mode s e rest
    · rw [hstage] at hg
      exact absurd hg List.not_mem_nil
    · rw [hstage, RunStage.tried_ofRound] at hg
      exact absurd hg List.not_mem_nil
  stops hmode := (h.stops hmode).concat (performed_conclude mode s e rest) fun hp =>
    h.unfailed hmode (phase ▸ hp) before
  unfailed hmode hp hgoing := by
    obtain ⟨hstage, -⟩ | ⟨-, hunfailed⟩ := stage_conclude mode s e rest
    · rw [hstage] at hgoing
      cases hgoing
    · exact hunfailed hmode hp

/-- Every event keeps the order. -/
theorem Orderly.effect (h : s.Orderly mode) (he : Effect mode s g? s') : s'.Orderly mode := by
  cases he with
  | still alike trampoline tried =>
    exact h.alike alike (congrArg Trampoline.phase trampoline) (tried ▸ h.tried)
  | tries kind job alike trampoline tried =>
    have hp : s'.phase = s.phase :=
      (congrArg Trampoline.phase trampoline).trans (Trampoline.phase_attempt ..)
    refine h.alike alike hp fun g hg => ?_
    rcases tried g hg with hg | rfl
    · exact h.tried g hg
    · exact Trampoline.refusal_attempt ..
  | finds =>
    exact ⟨h.sequenced, fun g hg => absurd hg List.not_mem_nil, h.stops, fun _ _ hl => nomatch hl⟩
  | takes _ before =>
    have hp := Run.round_takeRound s.toRun
    refine ⟨h.sequenced.takeRound, fun g hg => ?_, h.stops, fun hmode hactions _ => ?_⟩
    · rw [RunStage.tried_ofRound] at hg
      exact absurd hg List.not_mem_nil
    · exact h.unfailed hmode (hp ▸ hactions) before
  | concludes e rest _ before phase tried => exact h.concludes before phase tried
  | leaves =>
    exact ⟨h.sequenced.advance, fun g hg => absurd hg List.not_mem_nil, h.stops,
      fun _ hp _ => absurd hp (Run.phase_advance_ne_actions _)⟩

/-! ### The account -/

/-- The account of a run. Of the jobs `acc` that it accepted, `late` came too late. -/
structure Books (mode : RunMode) (acc late : JobKind → List J) (s : StagedRun sys) : Prop where
  /-- What was accepted, and may still be, was performed, waits, or is the rest of a round that was
  given up. -/
  balance : ∀ k, s.phase.accepts k = true → ∃ lost,
    acc k = s.performedIn k.phase ++ (lost ++ s.waiting s.stage.jobs k) ∧
      (lost ≠ [] → s.misses k = true ∧ mode.forgoes (s.failedIn .actions) k = true)
  /-- As long as a kind is looked for, nothing of it is late. -/
  inTime : ∀ k, s.phase.accepts k = true → s.misses k = false → late k = []
  /-- When it is not, nothing of it waits but what is late. -/
  missed : ∀ k, s.misses k = true → mode.forgoes (s.failedIn .actions) k = false →
    s.trampoline.queue k = late k
  /-- What is no longer accepted was performed, given up or late. -/
  settled : ∀ k, s.phase.accepts k = false → ∃ lost,
    acc k = s.performedIn k.phase ++ lost ∧
      (mode.forgoes (s.failedIn .actions) k = false → lost = late k)
  drained : s.phase = .completed → ∀ k, s.trampoline.queue k = []

namespace Books

variable {acc late : JobKind → List J}

theorem start {t : Trampoline J} (h : t.phase = .actions) (w : W) :
    (StagedRun.start sys t w).Books mode t.queue fun _ => [] where
  balance k _ := by
    refine ⟨[], ?_, fun hne => absurd rfl hne⟩
    rw [show (StagedRun.start sys t w).stage.jobs = [] from rfl, Run.waiting_nil]
    rfl
  inTime _ _ _ := rfl
  missed _ hm _ := nomatch hm
  settled k hk := by
    rw [show (StagedRun.start sys t w).phase = .actions from h] at hk
    cases hk
  drained hp := by
    rw [show (StagedRun.start sys t w).phase = .actions from h] at hp
    cases hp

/-- Jobs are added to queues whose kinds are accepted. -/
theorem adds (h : s.Books mode acc late) (ha : s.Alike s') (hp : s'.phase = s.phase)
    (new : JobKind → List J)
    (queue : ∀ k, s'.trampoline.queue k = s.trampoline.queue k ++ new k)
    (refused : ∀ k, s.phase.accepts k = false → new k = []) :
    s'.Books mode (fun k => acc k ++ new k)
      fun k => late k ++ if s.misses k then new k else [] := by
  have hmisses := ha.misses hp
  constructor
  case balance =>
    intro k hk
    obtain ⟨lost, heq, hlost⟩ := h.balance k (hp ▸ hk)
    refine ⟨lost, ?_, fun hne => ?_⟩
    · rw [heq, ha.performedIn, Run.waiting, Run.waiting, ha.jobs, hp, queue]
      simp only [List.append_assoc]
    · rw [hmisses, ha.failedIn]
      exact hlost hne
  case inTime =>
    intro k hk hm
    rw [hmisses] at hm
    rw [h.inTime k (hp ▸ hk) hm, hm]
    rfl
  case missed =>
    intro k hm hf
    rw [hmisses] at hm
    rw [ha.failedIn] at hf
    rw [queue, h.missed k hm hf, if_pos hm]
  case settled =>
    intro k hk
    rw [hp] at hk
    have hm : s.misses k = false := by
      rw [misses, decide_eq_false (Run.ne_phase hk), Bool.and_false]
    obtain ⟨lost, heq, hlost⟩ := h.settled k hk
    refine ⟨lost, ?_, fun hf => ?_⟩
    · rw [refused k hk, List.append_nil, ha.performedIn]
      exact heq
    · rw [hm, hlost (ha.failedIn _ ▸ hf)]
      exact (List.append_nil _).symm
  case drained =>
    intro hc k
    rw [hp] at hc
    rw [queue, h.drained hc, refused k (by rw [hc]; cases k <;> rfl)]
    rfl

/-- Nothing is given up before the phase is going to be left. -/
theorem balance_of_going (h : s.Books mode acc late) (going : s.stage.isLeaving = false)
    {k : JobKind} (hk : s.phase.accepts k = true) :
    acc k = s.performedIn k.phase ++ s.waiting s.stage.jobs k := by
  obtain ⟨lost, heq, hlost⟩ := h.balance k hk
  cases lost with
  | nil => exact heq
  | cons j js =>
    rw [misses_of_not_leaving going] at hlost
    exact nomatch (hlost (List.cons_ne_nil j js)).1

/-- When no job is found, nothing of the phase waits. -/
theorem finds (h : s.Books mode acc late) (jobs : s.stage.jobs = [])
    (before : s.stage.isLeaving = false) (empty : s.round = []) :
    Books mode acc late ({ s with stage := .leaving } : StagedRun sys) := by
  have hgoing := misses_of_not_leaving before
  constructor
  case balance =>
    intro k hk
    have hbalance := h.balance_of_going before hk
    rw [jobs] at hbalance
    exact ⟨[], hbalance, fun hne => absurd rfl hne⟩
  case inTime => exact fun k hk _ => h.inTime k hk (hgoing k)
  case missed =>
    intro k hm _
    have hp := phase_of_misses hm
    change s.phase = k.phase at hp
    have hqueue : s.trampoline.queue k = [] := by
      rw [← empty, Run.round, Trampoline.takeRound_fst _ (Phase.kind?_eq_some.mpr hp)]
    have htime := h.inTime k (hp ▸ JobKind.accepts_phase k) (hgoing k)
    rw [htime]
    exact hqueue
  case settled => exact h.settled
  case drained => exact h.drained

theorem takes (h : s.Books mode acc late) (jobs : s.stage.jobs = [])
    (before : s.stage.isLeaving = false) :
    Books mode acc late ({ s with
      trampoline := s.trampoline.takeRound.2, stage := .ofRound s.round } : StagedRun sys) := by
  have hp := Run.round_takeRound s.toRun
  constructor
  case balance =>
    intro k hk
    rw [hp] at hk
    refine ⟨[], ?_, fun hne => absurd rfl hne⟩
    rw [h.balance_of_going before hk, jobs, RunStage.jobs_ofRound, ← Run.waiting_takeRound]
    rfl
  case inTime =>
    intro k hk _
    rw [hp] at hk
    exact h.inTime k hk (misses_of_not_leaving before k)
  case missed =>
    intro k hm _
    rw [misses_of_not_leaving (RunStage.isLeaving_ofRound _)] at hm
    cases hm
  case settled =>
    intro k hk
    rw [hp] at hk
    exact h.settled k hk
  case drained =>
    intro hc k
    rw [hp] at hc
    refine List.eq_nil_iff_forall_not_mem.mpr fun j hj => ?_
    have := Trampoline.mem_queue_takeRound hj
    rw [h.drained hc] at this
    cases this

/-- A job is performed. When it fails, the rest of its round may be given up. -/
theorem concludes (h : s.Books mode acc late) {e : Performed J} {rest : List J}
    (jobs : s.stage.jobs = e.job :: rest) (before : s.stage.isLeaving = false)
    (phase : e.phase = s.phase) : Books mode acc late (s.conclude mode e rest) := by
  have hgoing := misses_of_not_leaving before
  have hperformed := Run.performedIn_concat (performed_conclude mode s e rest)
  have hstage := stage_conclude mode s e rest
  constructor
  case balance =>
    intro k hk
    have hbalance : acc k = (s.conclude mode e rest).performedIn k.phase ++
        ((if s.phase = k.phase then rest else []) ++ s.trampoline.queue k) := by
      rw [h.balance_of_going before hk, jobs, Run.waiting, hperformed, phase]
      split <;> simp
    rcases hstage with ⟨hstage, rfl, hactions, hfailed⟩ | ⟨hstage, -⟩
    · refine ⟨if s.phase = k.phase then rest else [], ?_, fun hne => ?_⟩
      · rw [hstage, RunStage.jobs_leaving, Run.waiting_nil]
        exact hbalance
      · have hp : s.phase = k.phase := by
          by_contra hp
          exact hne (if_neg hp)
        obtain rfl : k = .action := JobKind.phase_injective.mp (hp.symm.trans hactions)
        refine ⟨?_, by simp [RunMode.forgoes, hfailed]⟩
        rw [misses, hstage, phase_conclude, decide_eq_true hp]
        rfl
    · refine ⟨[], ?_, fun hne => absurd rfl hne⟩
      rw [hstage, RunStage.jobs_ofRound]
      exact hbalance
  case inTime => exact fun k hk _ => h.inTime k hk (hgoing k)
  case missed =>
    intro k hm hf
    rcases hstage with ⟨-, rfl, hactions, hfailed⟩ | ⟨hstage, -⟩
    · obtain rfl : k = .action :=
        JobKind.phase_injective.mp ((phase_of_misses hm).symm.trans hactions)
      simp [RunMode.forgoes, hfailed] at hf
    · rw [misses, hstage, RunStage.isLeaving_ofRound] at hm
      cases hm
  case settled =>
    intro k hk
    have hne : e.phase ≠ k.phase := phase ▸ Run.ne_phase hk
    have hactions : e.phase ≠ .actions := by
      intro hp
      rw [phase_conclude, ← phase, hp] at hk
      cases hk
    rw [hperformed, if_neg hne, List.append_nil,
      Run.failedIn_concat_of_ne (performed_conclude mode s e rest) hactions]
    exact h.settled k hk
  case drained => exact h.drained

/-- The next phase is entered. What it does not accept any more was given up, unless it is of the
phase that is left and late. -/
theorem leaves (h : s.Books mode acc late) (before : s.stage = .leaving) :
    Books mode acc late (⟨s.advance, .polling⟩ : StagedRun sys) := by
  have hp : s.advance.phase = s.nextPhase := Run.phase_advance s.toRun
  constructor
  case balance =>
    intro k hk
    rw [hp] at hk
    have hne : s.phase ≠ k.phase := fun heq => by
      rw [Run.accepts_nextPhase_of_eq heq] at hk
      cases hk
    obtain ⟨lost, heq, hlost⟩ := h.balance k (Run.accepts_of_accepts_nextPhase hk)
    obtain rfl : lost = [] := by
      by_contra hlost'
      exact hne (phase_of_misses (hlost hlost').1)
    refine ⟨[], ?_, fun hne => absurd rfl hne⟩
    rw [heq, before, RunStage.jobs_leaving,
      RunStage.jobs_polling, Run.waiting_nil, Run.waiting_nil]
    exact congrArg _ (congrArg _ (Trampoline.queue_enter_of_accepts _ hk).symm)
  case inTime =>
    intro k hk _
    rw [hp] at hk
    refine h.inTime k (Run.accepts_of_accepts_nextPhase hk) ?_
    by_contra hm
    rw [Run.accepts_nextPhase_of_eq (phase_of_misses (Bool.not_eq_false _ ▸ hm))] at hk
    cases hk
  case missed => exact fun k hm _ => nomatch hm
  case settled =>
    intro k hk
    rw [hp] at hk
    cases hacc : s.phase.accepts k with
    | false => exact h.settled k hacc
    | true =>
      obtain ⟨lost, heq, hlost⟩ := h.balance k hacc
      rw [before, RunStage.jobs_leaving, Run.waiting_nil] at heq
      refine ⟨lost ++ s.trampoline.queue k, heq, fun hf => ?_⟩
      change mode.forgoes (s.failedIn .actions) k = false at hf
      have hpk : s.phase = k.phase := by
        by_contra hne
        rw [Run.forgoes_of_accepts hacc hk hne] at hf
        cases hf
      obtain rfl : lost = [] := by
        by_contra hne
        rw [hf] at hlost
        exact nomatch (hlost hne).2
      refine h.missed k ?_ hf
      rw [misses, before, decide_eq_true hpk]
      rfl
  case drained =>
    exact fun hc k => Run.queue_advance_of_isDone (decide_eq_true hc) k

/-- **Every event keeps the account.** -/
theorem effect (h : s.Books mode acc late) (he : Effect mode s g? s') :
    s'.Books mode (fun k => acc k ++ Registration.accepted k g?.toList)
      fun k => late k ++ if s.misses k then Registration.accepted k g?.toList else [] := by
  have same : ∀ {s' : StagedRun sys}, s'.Books mode acc late →
      s'.Books mode (fun k => acc k ++ Registration.accepted k ([] : List (Registration J)))
        fun k => late k ++ if s.misses k then Registration.accepted k ([] : List (Registration J))
          else [] := by
    intro s' h'
    simpa [Registration.accepted] using h'
  cases he with
  | still alike trampoline _ =>
    exact h.adds alike (congrArg Trampoline.phase trampoline) _
      (fun k => by rw [trampoline]; simp [Registration.accepted]) fun _ _ => rfl
  | tries kind job alike trampoline _ =>
    refine h.adds alike ((congrArg Trampoline.phase trampoline).trans
      (Trampoline.phase_attempt ..)) _ (fun k => ?_) fun k hk => ?_
    · rw [trampoline]
      exact Trampoline.queue_attempt ..
    · refine Performed.accepted_eq_nil (e := ⟨s.phase, job, none, _⟩) ?_ hk
      intro g hg
      rw [List.mem_singleton.mp hg]
      exact Trampoline.refusal_attempt ..
  | finds jobs before empty => exact same (h.finds jobs before empty)
  | takes jobs before => exact same (h.takes jobs before)
  | concludes e rest jobs before phase _ => exact same (h.concludes jobs before phase)
  | leaves _ before => exact same (h.leaves before)

theorem play (h : s.Books mode acc late) (es : List (Event J W)) :
    (s.play mode es).Books mode (fun k => acc k ++ s.accepted mode k es)
      fun k => late k ++ s.late mode k es := by
  induction es generalizing s acc late with
  | nil => simpa [StagedRun.accepted, StagedRun.late, StagedRun.play] using h
  | cons e es ih =>
    have := ih (h.effect (effect_respond s e))
    simpa only [StagedRun.play, StagedRun.accepted, StagedRun.late, StagedRun.acceptedAt,
      List.append_assoc] using this

end Books

theorem Orderly.play (h : s.Orderly mode) (es : List (Event J W)) :
    (s.play mode es).Orderly mode := by
  induction es generalizing s with
  | nil => exact h
  | cons e es ih => exact ih (h.effect (effect_respond s e))

/-! ### Runs that are over -/

/-- What holds of a run that is over. Of the jobs `acc` that it accepted, `late` came too late. -/
structure Settles (mode : RunMode) (acc late : JobKind → List J) (s : StagedRun sys) : Prop where
  /-- All accepted actions but the late ones are performed, unless the run was to stop at a failure
  and met one. -/
  actions : mode = .all ∨ s.failedIn .actions = false →
    acc .action = s.performedIn .actions ++ late .action
  /-- Otherwise those up to the failure are performed. -/
  actions_upTo : s.performedIn .actions <+: acc .action
  actions_stop : mode = .untilFailure → s.StopsAtFailure
  success : s.failedIn .actions = false → acc .success = s.performedIn .success ++ late .success
  success_none : s.failedIn .actions = true → s.performedIn .success = []
  error : s.failedIn .actions = true → acc .error = s.performedIn .error ++ late .error
  error_none : s.failedIn .actions = false → s.performedIn .error = []
  closing : acc .closing = s.performedIn .closing ++ late .closing
  /-- So all that is not to be given up is performed exactly if nothing of it is late. -/
  complete_iff :
    (∀ k, mode.forgoes (s.failedIn .actions) k = false → s.performedIn k.phase = acc k) ↔
      ∀ k, mode.forgoes (s.failedIn .actions) k = false → late k = []
  /-- Actions come before the handlers of success or error, and these before those that close. -/
  ordered : s.performed.Pairwise fun a b => b.phase.rank ≤ a.phase.rank
  /-- A registration was refused exactly if the phase did not accept its kind. -/
  refusals : ∀ e ∈ s.performed, ∀ g ∈ e.registrations, g.refusal = e.phase.refusal g.kind
  reported : s.toRun.Reported
  /-- Nothing waits, nothing is performed any more, and nothing is accepted. -/
  drained : ∀ k, s.trampoline.queue k = []
  stays : ∀ es, (s.play mode es).performed = s.performed ∧
    (s.play mode es).trampoline = s.trampoline
  refuses : ∀ k j, s.trampoline.register k j = .error (.phaseViolation k .completed)

theorem register_of_isDone (h : s.isDone = true) (k : JobKind) (j : J) :
    s.trampoline.register k j = .error (.phaseViolation k .completed) := by
  have hp := Run.phase_of_isDone h
  rw [Run.phase] at hp
  rw [Trampoline.register, hp]
  rfl

/-- When a run is over, an event changes the world at most. -/
theorem respond_of_isDone (mode : RunMode) (h : s.isDone = true) (e : Event J W) :
    (s.respond mode e).2.performed = s.performed ∧
      (s.respond mode e).2.trampoline = s.trampoline := by
  cases e with
  | stride => simp [respond, stride, h]
  | register kind job =>
    simp [respond, register, Trampoline.attempt_of_error (register_of_isDone h kind job)]
  | change f => exact ⟨rfl, rfl⟩

theorem play_of_isDone (h : s.isDone = true) (es : List (Event J W)) :
    (s.play mode es).performed = s.performed ∧
      (s.play mode es).trampoline = s.trampoline := by
  induction es generalizing s with
  | nil => exact ⟨rfl, rfl⟩
  | cons e es ih =>
    obtain ⟨hperformed, htrampoline⟩ := respond_of_isDone mode h e
    have hdone : (s.respond mode e).2.isDone = true := by
      rw [Run.isDone, Run.phase, htrampoline]
      exact h
    obtain ⟨hrest, hrest'⟩ := ih hdone
    exact ⟨hrest.trans hperformed, hrest'.trans htrampoline⟩

theorem settles {acc late : JobKind → List J} (hbooks : s.Books mode acc late)
    (horder : s.Orderly mode) (hdone : s.isDone = true) : s.Settles mode acc late := by
  have hnone := Run.accepts_of_isDone hdone
  have hseq := horder.sequenced
  -- What the run does not forgo has been performed, but for what is late.
  have hfull : ∀ k, mode.forgoes (s.failedIn .actions) k = false →
      acc k = s.performedIn k.phase ++ late k := by
    intro k hk
    obtain ⟨lost, heq, hlost⟩ := hbooks.settled k (hnone k)
    rw [heq, hlost hk]
  constructor
  case actions => exact fun h => hfull .action (Run.forgoes_action h)
  case actions_upTo =>
    obtain ⟨lost, heq, -⟩ := hbooks.settled .action (hnone .action)
    exact ⟨lost, heq.symm⟩
  case actions_stop => exact horder.stops
  case success => exact fun hf => hfull .success hf
  case success_none => exact fun hf => hseq.performedIn_eq_nil (by rw [hf]; rfl)
  case error => exact fun hf => hfull .error (by rw [hf]; rfl)
  case error_none => exact fun hf => hseq.performedIn_eq_nil (by rw [hf]; rfl)
  case closing => exact hfull .closing rfl
  case complete_iff =>
    refine forall_congr' fun k => forall_congr' fun hk => ?_
    rw [hfull k hk, eq_comm, List.append_right_eq_self]
  case ordered => exact hseq.ordered
  case refusals => exact hseq.refusals
  case reported => exact s.reported
  case drained => exact hbooks.drained (Run.phase_of_isDone hdone)
  case stays => exact play_of_isDone hdone
  case refuses => exact register_of_isDone hdone

/-- **A run that is over has settled its account**, whatever its jobs do and whatever others do
meanwhile. -/
theorem settles_play {t : Trampoline J} (h : t.phase = .actions) (w : W) {es : List (Event J W)}
    (hdone : ((start sys t w).play mode es).isDone = true) :
    ((start sys t w).play mode es).Settles mode
      (fun k => t.queue k ++ (start sys t w).accepted mode k es)
      fun k => (start sys t w).late mode k es :=
  settles ((Books.start h w).play es) ((Orderly.start h w).play es) hdone

end StagedRun

end PartyGraph
