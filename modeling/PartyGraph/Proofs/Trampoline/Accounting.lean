import PartyGraph.Proofs.Trampoline.Conservation

/-!
# Every accepted job is accounted for

At every moment of a run, the jobs accepted for a kind of work, whether registered before the run
or during it, are in order: those performed, those that wait, and those that were given up
(`Run.Accounted`). The order in each queue is kept, so this is an equation between lists, which
says of each registration by itself that it is performed once or not at all.

Jobs are given up in three cases only (`RunMode.forgoes`): actions after one has failed, in a run
that is to stop then; success handlers when an action has failed; error handlers when none has.
Nothing is given up as long as the phase accepts its kind. So a job that waits when its kind is no
longer accepted is of a phase that the run never enters, or the phase was left at a failure.

Here only jobs under way register others. What is different when others do so meanwhile is the
subject of `PartyGraph.Proofs.Trampoline.Strides`, which uses what is said here about the order of
jobs and about failures.

## Main definitions

* `RunMode.forgoes`: what a run may leave unperformed.
* `Run.Sequenced`: the order of what is performed.
* `Run.StopsAtFailure`: no action is performed after one that failed.
* `Run.Accounted`: the invariant, with the rest of the round that is under way.
* `Run.Reported`: what the outcome of a run tells.
* `Run.Settles`: what holds of a run that is over.

## Main results

* `Run.Accounted.step`: every step keeps the account.
* `Run.settles_steps`: a run that is over has settled its account.
-/

namespace PartyGraph

/-- Whether a run may leave accepted work of a kind unperformed, given whether an action failed. -/
def RunMode.forgoes (mode : RunMode) (failed : Bool) : JobKind → Bool
  | .action => decide (mode = .untilFailure) && failed
  | .success => failed
  | .error => !failed
  | .closing => false

/-- Whether a phase can be entered in a run, given whether an action failed. -/
def Phase.suits (failed : Bool) : Phase → Bool
  | .success => !failed
  | .error => failed
  | _ => true

theorem Phase.eq_actions_of_rank_le {p : Phase} (h : Phase.rank .actions ≤ p.rank) :
    p = .actions := by
  cases p with
  | actions => rfl
  | _ => exact absurd h (by decide)

theorem JobKind.accepts_phase (k : JobKind) : k.phase.accepts k = true := by
  cases k <;> rfl

namespace Run

variable {J W : Type} {sys : JobSystem J W} {mode : RunMode} {t : Trampoline J}

/-! ### Failures -/

/-- A job performed in another phase is not among the failures of a phase. -/
theorem failedIn_concat_of_ne {r r' : Run J W} {e : Performed J} {p : Phase}
    (h : r'.performed = r.performed ++ [e]) (hne : e.phase ≠ p) : r'.failedIn p = r.failedIn p := by
  simp [failedIn, failuresIn, h, hne]

theorem failedIn_perform_of_ne {r : Run J W} {p : Phase} (h : r.phase ≠ p) (j : J) :
    (r.perform sys j).failedIn p = r.failedIn p :=
  failedIn_concat_of_ne (performed_perform r j) h

theorem failedIn_eq_true {r : Run J W} {p : Phase} :
    r.failedIn p = true ↔ ∃ e ∈ r.performed, e.phase = p ∧ e.failure.isSome = true := by
  simp only [failedIn, failuresIn, Bool.not_eq_true', List.isEmpty_eq_false_iff_exists_mem,
    List.mem_filterMap, Option.ite_none_right_eq_some, Option.isSome_iff_exists]
  constructor
  · rintro ⟨f, e, he, hp, hf⟩
    exact ⟨e, he, hp, f, hf⟩
  · rintro ⟨e, he, hp, f, hf⟩
    exact ⟨f, e, he, hp, hf⟩

/-! ### Phases -/

theorem accepts_of_accepts_nextPhase {r : Run J W} {k : JobKind}
    (h : r.nextPhase.accepts k = true) : r.phase.accepts k = true := by
  unfold nextPhase at h
  cases hp : r.phase <;> rw [hp] at h <;> revert h <;> cases k <;> simp [Phase.accepts]

theorem ne_phase {r : Run J W} {k : JobKind} (h : r.phase.accepts k = false) :
    r.phase ≠ k.phase := by
  intro heq
  rw [heq, JobKind.accepts_phase] at h
  cases h

/-- The work of the present phase is not accepted in the next. -/
theorem accepts_nextPhase_of_eq {r : Run J W} {k : JobKind} (h : r.phase = k.phase) :
    r.nextPhase.accepts k = false := by
  unfold nextPhase
  rw [h]
  cases k with
  | action =>
    simp only [JobKind.phase]
    split <;> rfl
  | success => rfl
  | error => rfl
  | closing => rfl

/-- Of the work that is accepted for the last time, all but that of the present phase may be
given up. -/
theorem forgoes_of_accepts {r : Run J W} {k : JobKind} (h : r.phase.accepts k = true)
    (hnext : r.nextPhase.accepts k = false) (hne : r.phase ≠ k.phase) :
    mode.forgoes (r.failedIn .actions) k = true := by
  unfold nextPhase at hnext
  cases hp : r.phase with
  | actions =>
    rw [hp] at hnext hne
    cases hf : r.failedIn .actions <;> cases k <;>
      simp_all [Phase.accepts, RunMode.forgoes, JobKind.phase]
  | success | error | closing | completed =>
    rw [hp] at h hnext hne
    cases k <;> simp_all [Phase.accepts, JobKind.phase]

theorem suits_nextPhase (r : Run J W) : r.nextPhase.suits (r.failedIn .actions) = true := by
  unfold nextPhase
  cases r.phase with
  | actions => cases r.failedIn .actions <;> rfl
  | _ => rfl

/-! ### Steps -/

/-- A step with a round in it, which may be broken off at a failure. -/
theorem step_eq_of_round {r : Run J W} (h : r.round ≠ []) :
    r.step sys mode =
      let r' := performRound sys (r.halts mode)
        { r with trampoline := r.trampoline.takeRound.2 } r.round
      if r.halts mode && r'.failedIn .actions then r'.advance else r' := by
  rw [round] at h ⊢
  rw [step]
  split
  · next t htake => exact absurd (by simp [htake]) h
  · next jobs t hne htake => simp [htake]

/-- What is kept when a job is performed, when a round is taken and when a phase is left, is kept
by every step. -/
theorem step_keeps {P : Run J W → Prop} (perform : ∀ r j, P r → P (r.perform sys j))
    (takeRound : ∀ r, P r → P { r with trampoline := r.trampoline.takeRound.2 })
    (advance : ∀ r, P r → P r.advance) {r : Run J W} (h : P r) : P (r.step sys mode) := by
  have round : ∀ (halting : Bool) (js : List J) (r : Run J W), P r →
      P (performRound sys halting r js) := by
    intro halting js
    induction js with
    | nil => exact fun r h => h
    | cons j js ih =>
      intro r h
      rw [performRound]
      split
      · exact perform r j h
      · exact ih _ (perform r j h)
  by_cases hnil : r.round = []
  · rw [step_of_round_nil hnil]
    exact advance r h
  · rw [step_eq_of_round hnil]
    dsimp only
    split
    · exact advance _ (round _ _ _ (takeRound r h))
    · exact round _ _ _ (takeRound r h)

/-! ### The order of what is performed -/

/-- What a run has performed so far is in the order of the phases, and in phases that go with
whether an action failed. -/
structure Sequenced (r : Run J W) : Prop where
  suits : r.phase.suits (r.failedIn .actions) = true
  performed_suits : ∀ e ∈ r.performed, e.phase.suits (r.failedIn .actions) = true
  ordered : r.performed.Pairwise fun a b => b.phase.rank ≤ a.phase.rank
  ahead : ∀ e ∈ r.performed, r.phase.rank ≤ e.phase.rank
  refusals : ∀ e ∈ r.performed, ∀ g ∈ e.registrations, g.refusal = e.phase.refusal g.kind

namespace Sequenced

variable {r : Run J W}

theorem start (h : t.phase = .actions) (w : W) : (start t w : Run J W).Sequenced where
  suits := by
    rw [show (Run.start t w : Run J W).phase = .actions from h]
    rfl
  performed_suits e he := absurd he List.not_mem_nil
  ordered := .nil
  ahead e he := absurd he List.not_mem_nil
  refusals e he := absurd he List.not_mem_nil

theorem mem_performed_perform {e : Performed J} {j : J} :
    e ∈ (r.perform sys j).performed ↔ e ∈ r.performed ∨ e = r.entry sys j := by
  rw [performed_perform, List.mem_append, List.mem_singleton]

/-- Another job is performed in the present phase. -/
theorem concat (h : r.Sequenced) {r' : Run J W} {e : Performed J} (phase : r'.phase = r.phase)
    (performed : r'.performed = r.performed ++ [e]) (he : e.phase = r.phase)
    (refusals : ∀ g ∈ e.registrations, g.refusal = e.phase.refusal g.kind) : r'.Sequenced := by
  have hcases : ∀ {x}, x ∈ r'.performed ↔ x ∈ r.performed ∨ x = e := by
    simp [performed]
  constructor
  case suits =>
    rw [phase]
    by_cases hp : r.phase = .actions
    · rw [hp]
      rfl
    · rw [failedIn_concat_of_ne performed (he ▸ hp)]
      exact h.suits
  case performed_suits =>
    intro x hx
    by_cases hp : r.phase = .actions
    · -- As long as actions are performed, nothing else has been.
      have : x.phase = .actions := by
        rcases hcases.mp hx with hx | rfl
        · exact Phase.eq_actions_of_rank_le (hp ▸ h.ahead x hx)
        · exact he.trans hp
      rw [this]
      rfl
    · rw [failedIn_concat_of_ne performed (he ▸ hp)]
      rcases hcases.mp hx with hx | rfl
      · exact h.performed_suits x hx
      · rw [he]
        exact h.suits
  case ordered =>
    rw [performed, List.pairwise_append]
    refine ⟨h.ordered, List.pairwise_singleton .., fun a ha b hb => ?_⟩
    rw [List.mem_singleton.mp hb, he]
    exact h.ahead a ha
  case ahead =>
    intro x hx
    rw [phase]
    rcases hcases.mp hx with hx | rfl
    · exact h.ahead x hx
    · exact Nat.le_of_eq (congrArg Phase.rank he.symm)
  case refusals =>
    intro x hx
    rcases hcases.mp hx with hx | rfl
    · exact h.refusals x hx
    · exact refusals

theorem perform (h : r.Sequenced) (j : J) : (r.perform sys j).Sequenced :=
  h.concat (phase_perform r j) (performed_perform r j) rfl (refusal_entry r j)

/-- It matters what was performed, and the phase. -/
theorem congr (h : r.Sequenced) {r' : Run J W} (phase : r'.phase = r.phase)
    (performed : r'.performed = r.performed) : r'.Sequenced := by
  have failed : r'.failedIn .actions = r.failedIn .actions := by
    simp only [failedIn, failuresIn, performed]
  constructor
  case suits => exact failed ▸ phase ▸ h.suits
  case performed_suits => exact failed ▸ performed ▸ h.performed_suits
  case ordered => exact performed ▸ h.ordered
  case ahead => exact phase ▸ performed ▸ h.ahead
  case refusals => exact performed ▸ h.refusals

theorem takeRound (h : r.Sequenced) :
    ({ r with trampoline := r.trampoline.takeRound.2 } : Run J W).Sequenced :=
  h.congr (round_takeRound r) rfl

theorem advance (h : r.Sequenced) : r.advance.Sequenced := by
  refine ⟨?_, h.performed_suits, h.ordered, fun e he => ?_, h.refusals⟩
  · rw [phase_advance]
    exact suits_nextPhase r
  · rw [phase_advance]
    refine Nat.le_trans ?_ (h.ahead e he)
    by_cases hp : r.phase = .completed
    · simp [nextPhase, hp]
    · exact Nat.le_of_lt (rank_nextPhase_lt hp)

theorem step (h : r.Sequenced) : (r.step sys mode).Sequenced :=
  step_keeps (fun _ j h => h.perform j) (fun _ h => h.takeRound) (fun _ h => h.advance) h

/-- No handler is performed in a phase that the run does not pass through. -/
theorem performedIn_eq_nil (h : r.Sequenced) {p : Phase}
    (hp : p.suits (r.failedIn .actions) = false) : r.performedIn p = [] := by
  rw [performedIn, List.map_eq_nil_iff, List.filter_eq_nil_iff]
  intro e he heq
  obtain rfl : e.phase = p := of_decide_eq_true heq
  rw [h.performed_suits e he] at hp
  cases hp

end Sequenced

/-! ### Giving up at a failure -/

/-- Whether no action was performed after one that failed. -/
def StopsAtFailure (r : Run J W) : Prop :=
  ∀ e ∈ (r.performed.filter (·.phase = .actions)).dropLast, e.failure = none

/-- A job may be performed after actions that all succeeded, or in a later phase. -/
theorem StopsAtFailure.concat {r r' : Run J W} {e : Performed J} (h : r.StopsAtFailure)
    (performed : r'.performed = r.performed ++ [e])
    (unfailed : e.phase = .actions → r.failedIn .actions = false) : r'.StopsAtFailure := by
  unfold StopsAtFailure
  rw [performed, List.filter_append]
  by_cases hp : e.phase = .actions
  · intro x hx
    have hlast : [e].filter (·.phase = .actions) = [e] := by
      simp [hp]
    rw [hlast, List.dropLast_concat] at hx
    obtain ⟨hx, hp'⟩ := List.mem_filter.mp hx
    cases hf : x.failure with
    | none => rfl
    | some f =>
      have := unfailed hp
      rw [failedIn_eq_true.mpr ⟨x, hx, of_decide_eq_true hp', by rw [hf]; rfl⟩] at this
      cases this
  · have hlast : [e].filter (·.phase = .actions) = [] := by
      simp [hp]
    rwa [hlast, List.append_nil]

theorem phase_advance_ne_actions (r : Run J W) : r.advance.phase ≠ .actions := by
  rw [phase_advance]
  unfold nextPhase
  cases r.phase with
  | actions => cases r.failedIn .actions <;> simp
  | _ => simp

/-! ### The account of a run under way -/

/-- The jobs of a kind that wait: the rest of the round when it is of that kind, and the queue. -/
def waiting (r : Run J W) (pending : List J) (k : JobKind) : List J :=
  (if r.phase = k.phase then pending else []) ++ r.trampoline.queue k

@[simp] theorem waiting_nil (r : Run J W) (k : JobKind) :
    r.waiting [] k = r.trampoline.queue k := by
  simp [waiting]

/-- Taking a round moves it out of the queue. -/
theorem waiting_takeRound (r : Run J W) (k : JobKind) :
    ({ r with trampoline := r.trampoline.takeRound.2 } : Run J W).waiting r.round k
      = r.waiting [] k := by
  rw [waiting_nil, waiting, round_takeRound]
  by_cases hk : r.phase = k.phase
  · have hkind : r.trampoline.phase.kind? = some k := Phase.kind?_eq_some.mpr hk
    rw [if_pos hk, round, Trampoline.takeRound_fst _ hkind,
      Trampoline.queue_takeRound_same _ hkind, List.append_nil]
  · rw [if_neg hk, List.nil_append]
    cases hkind : r.trampoline.phase.kind? with
    | none => simp [Trampoline.takeRound, hkind]
    | some k' =>
      refine Trampoline.queue_takeRound_of_ne _ hkind ?_
      rintro rfl
      exact hk (Phase.kind?_eq_some.mp hkind)

/-- The account of a run that began with a trampoline and has some jobs of its round before it. -/
structure Accounted (mode : RunMode) (t : Trampoline J) (pending : List J) (r : Run J W) :
    Prop where
  /-- What was accepted, and may still be, was performed or waits. -/
  balance : ∀ k, r.phase.accepts k = true →
    t.queue k ++ r.accepted k = r.performedIn k.phase ++ r.waiting pending k
  /-- What is no longer accepted was performed or given up. -/
  settled : ∀ k, r.phase.accepts k = false → ∃ dropped,
    t.queue k ++ r.accepted k = r.performedIn k.phase ++ dropped ∧
      (dropped ≠ [] → mode.forgoes (r.failedIn .actions) k = true)
  /-- What is no longer accepted does not wait either. -/
  idle : ∀ k, r.phase.accepts k = false → r.waiting pending k = []

namespace Accounted

variable {r : Run J W} {pending : List J}

theorem start (h : t.phase = .actions) (w : W) :
    Accounted mode t [] (Run.start t w : Run J W) := by
  have hp : (Run.start t w : Run J W).phase = .actions := h
  refine ⟨fun k _ => by simp [Run.start, accepted, performedIn], fun k hk => ?_, fun k hk => ?_⟩
  all_goals
    rw [hp] at hk
    cases hk

/-- The job that comes next in the round is performed. -/
theorem perform {j : J} (h : Accounted mode t (j :: pending) r) :
    Accounted mode t pending (r.perform sys j) := by
  have hnone : ∀ k, r.phase.accepts k = false → (r.entry sys j).accepted k = [] := fun k hk =>
    Performed.accepted_eq_nil (refusal_entry r j) hk
  constructor <;> intro k hk <;> rw [phase_perform] at hk
  case balance =>
    rw [accepted_perform, performedIn_perform, ← List.append_assoc, h.balance k hk]
    by_cases hp : r.phase = k.phase <;> simp [waiting, hp, queue_perform, List.append_assoc]
  case settled =>
    have hne : r.phase ≠ .actions := by
      intro hp
      rw [hp] at hk
      cases hk
    rw [accepted_perform, performedIn_perform, hnone k hk, if_neg (ne_phase hk), List.append_nil,
      List.append_nil, failedIn_perform_of_ne hne]
    exact h.settled k hk
  case idle =>
    rw [← h.idle k hk]
    simp [waiting, ne_phase hk, queue_perform, hnone k hk]

/-- The passage to the next phase keeps the queues of the work that is still accepted and leaves
no other. -/
theorem queue_advance (h : Accounted mode t pending r) (k : JobKind) :
    r.advance.trampoline.queue k
      = if r.nextPhase.accepts k then r.trampoline.queue k else [] := by
  have hidle : r.phase.accepts k = false → r.trampoline.queue k = [] := fun hk =>
    (List.append_eq_nil_iff.mp (h.idle k hk)).2
  rw [Run.advance]
  unfold nextPhase
  cases hp : r.phase with
  | actions =>
    dsimp only
    split <;> cases k <;> rfl
  | success | error | closing | completed =>
    rw [hp] at hidle
    cases k <;> first | rfl | exact hidle rfl

/-- A phase is left when nothing waits for it, or at a failure. -/
theorem advance (h : Accounted mode t pending r)
    (hend : (∀ k, r.phase = k.phase → r.waiting pending k = []) ∨
      mode = .untilFailure ∧ r.phase = .actions ∧ r.failedIn .actions = true) :
    Accounted mode t [] r.advance := by
  constructor <;> intro k hk <;> rw [phase_advance] at hk
  case balance =>
    -- Work that is accepted later is not that of the phase.
    have hne : r.phase ≠ k.phase := fun heq => by
      rw [accepts_nextPhase_of_eq heq] at hk
      cases hk
    rw [waiting_nil, h.queue_advance, if_pos hk]
    have hbalance := h.balance k (accepts_of_accepts_nextPhase hk)
    rwa [waiting, if_neg hne, List.nil_append] at hbalance
  case settled =>
    cases hacc : r.phase.accepts k with
    | false => exact h.settled k hacc
    | true =>
      refine ⟨r.waiting pending k, h.balance k hacc, fun hdropped => ?_⟩
      by_cases hp : r.phase = k.phase
      · obtain hend | ⟨hmode, hactions, hfailed⟩ := hend
        · exact absurd (hend k hp) hdropped
        · obtain rfl : k = .action := JobKind.phase_injective.mp (hp.symm.trans hactions)
          have hfailed : r.advance.failedIn .actions = true := hfailed
          simp [RunMode.forgoes, hmode, hfailed]
      · exact forgoes_of_accepts (r := r) hacc hk hp
  case idle => rw [waiting_nil, h.queue_advance, if_neg (by simp [hk])]

theorem takeRound (h : Accounted mode t [] r) :
    Accounted mode t r.round { r with trampoline := r.trampoline.takeRound.2 } := by
  constructor <;> intro k hk <;> rw [round_takeRound r] at hk
  case balance =>
    rw [waiting_takeRound]
    exact h.balance k hk
  case settled => exact h.settled k hk
  case idle =>
    rw [waiting_takeRound]
    exact h.idle k hk

variable (sys) in
/-- A round is performed to its end, or to the first action that failed. -/
theorem performRound (halting : Bool) {js : List J} (h : Accounted mode t js r) :
    Accounted mode t [] (performRound sys halting r js) ∨
      halting = true ∧ (Run.performRound sys halting r js).failedIn .actions = true ∧
        ∃ rest, Accounted mode t rest (Run.performRound sys halting r js) := by
  induction js generalizing r with
  | nil => exact .inl h
  | cons j js ih =>
    rw [Run.performRound]
    split
    · next hstop =>
      rw [Bool.and_eq_true] at hstop
      exact .inr ⟨hstop.1, hstop.2, js, h.perform⟩
    · exact ih h.perform

/-- **Every step keeps the account.** -/
theorem step (h : Accounted mode t [] r) : Accounted mode t [] (r.step sys mode) := by
  by_cases hnil : r.round = []
  · rw [step_of_round_nil hnil]
    refine h.advance (.inl fun k hk => ?_)
    rw [waiting_nil, ← hnil, round, Trampoline.takeRound_fst _ (Phase.kind?_eq_some.mpr hk)]
  · have hround := h.takeRound.performRound sys (r.halts mode)
    have hstop : ∀ r' : Run J W, r'.phase = r.phase →
        (r.halts mode && r'.failedIn .actions) = true →
        mode = .untilFailure ∧ r'.phase = .actions ∧ r'.failedIn .actions = true := by
      intro r' hp hstop
      rw [Bool.and_eq_true, halts, Bool.and_eq_true, decide_eq_true_eq, decide_eq_true_eq] at hstop
      exact ⟨hstop.1.1, hp.trans hstop.1.2, hstop.2⟩
    have hphase : (Run.performRound sys (r.halts mode)
        { r with trampoline := r.trampoline.takeRound.2 } r.round).phase = r.phase := by
      rw [phase_performRound, round_takeRound]
    rw [step_eq_of_round hnil]
    dsimp only
    split
    · next hfailed =>
      obtain hall | ⟨-, -, rest, hrest⟩ := hround
      · exact hall.advance (.inr (hstop _ hphase hfailed))
      · exact hrest.advance (.inr (hstop _ hphase hfailed))
    · next hgoes =>
      obtain hall | ⟨hhalts, hfailed, -⟩ := hround
      · exact hall
      · exact absurd (Bool.and_eq_true _ _ ▸ ⟨hhalts, hfailed⟩) hgoes

end Accounted

/-! ### Runs that are over -/

/-- What the outcome of a run tells of it. -/
structure Reported (r : Run J W) : Prop where
  /-- The flags tell in which phases a job failed. -/
  flag_error : r.outcome.flags.error = true ↔
    ∃ e ∈ r.performed, e.phase = .actions ∧ e.failure.isSome = true
  flag_successHandler : r.outcome.flags.successHandler = true ↔
    ∃ e ∈ r.performed, e.phase = .success ∧ e.failure.isSome = true
  flag_errorHandler : r.outcome.flags.errorHandler = true ↔
    ∃ e ∈ r.performed, e.phase = .error ∧ e.failure.isSome = true
  flag_closingHandler : r.outcome.flags.closingHandler = true ↔
    ∃ e ∈ r.performed, e.phase = .closing ∧ e.failure.isSome = true
  /-- The failure is that of the actions. -/
  failure : r.outcome.failure = ActionError.combine (r.failuresIn .actions)
  failure_isSome : r.outcome.failure.isSome = r.outcome.flags.error

theorem isSome_combine (es : List ActionError) :
    (ActionError.combine es).isSome = !es.isEmpty := by
  rcases es with _ | ⟨e, _ | _⟩ <;> rfl

theorem reported (r : Run J W) : r.Reported where
  flag_error := failedIn_eq_true
  flag_successHandler := failedIn_eq_true
  flag_errorHandler := failedIn_eq_true
  flag_closingHandler := failedIn_eq_true
  failure := rfl
  failure_isSome := isSome_combine _

/-- The account of a run that began with a trampoline and is over. -/
structure Settles (mode : RunMode) (t : Trampoline J) (r : Run J W) : Prop where
  /-- All accepted actions are performed, unless the run was to stop at a failure and met one. -/
  actions : mode = .all ∨ r.failedIn .actions = false →
    r.performedIn .actions = t.queue .action ++ r.accepted .action
  /-- Otherwise those up to the failure are performed. -/
  actions_upTo : r.performedIn .actions <+: t.queue .action ++ r.accepted .action
  success : r.performedIn .success =
    if r.failedIn .actions then [] else t.queue .success ++ r.accepted .success
  error : r.performedIn .error =
    if r.failedIn .actions then t.queue .error ++ r.accepted .error else []
  closing : r.performedIn .closing = t.queue .closing ++ r.accepted .closing

/-- Nothing is accepted when a run is over. -/
theorem accepts_of_isDone {r : Run J W} (h : r.isDone = true) (k : JobKind) :
    r.phase.accepts k = false := by
  rw [phase_of_isDone h]
  cases k <;> rfl

theorem forgoes_action {failed : Bool} (h : mode = .all ∨ failed = false) :
    mode.forgoes failed .action = false := by
  rcases h with rfl | rfl
  · rfl
  · simp [RunMode.forgoes]

theorem settles {r : Run J W} (haccount : Accounted mode t [] r) (hseq : r.Sequenced)
    (hdone : r.isDone = true) : Settles mode t r := by
  have hnone := accepts_of_isDone hdone
  -- What the run does not forgo has been performed in full.
  have hfull : ∀ k, mode.forgoes (r.failedIn .actions) k = false →
      r.performedIn k.phase = t.queue k ++ r.accepted k := by
    intro k hk
    obtain ⟨dropped, heq, hd⟩ := haccount.settled k (hnone k)
    cases dropped with
    | nil => rw [heq, List.append_nil]
    | cons j js =>
      rw [hd (List.cons_ne_nil j js)] at hk
      cases hk
  constructor
  case actions => exact fun h => hfull .action (forgoes_action h)
  case actions_upTo =>
    obtain ⟨dropped, heq, -⟩ := haccount.settled .action (hnone .action)
    exact ⟨dropped, heq.symm⟩
  case success =>
    cases hf : r.failedIn .actions with
    | true => exact hseq.performedIn_eq_nil (by rw [hf]; rfl)
    | false => exact hfull .success hf
  case error =>
    cases hf : r.failedIn .actions with
    | true => exact hfull .error (by rw [hf]; rfl)
    | false => exact hseq.performedIn_eq_nil (by rw [hf]; rfl)
  case closing => exact hfull .closing rfl

/-- **A run that is over has settled its account**, whatever its jobs do. -/
theorem settles_steps (h : t.phase = .actions) (w : W) {n : Nat}
    (hdone : (steps sys mode n (start t w)).isDone = true) :
    Settles mode t (steps sys mode n (start t w)) :=
  settles (steps_induction (fun _ h => h.step) n (.start h w))
    (steps_induction (fun _ h => h.step) n (.start h w)) hdone

/-- A run of all its jobs that has come to its end has settled its account. -/
theorem settles_toEnd (h : t.phase = .actions) (w : W)
    (hacc : Acc (StepOf sys .all) (Run.start t w)) :
    Settles .all t ((Run.start t w).toEnd sys .all hacc) := by
  obtain ⟨⟨haccount, hseq⟩, hdone⟩ :=
    toEnd_induction (P := fun r => Accounted .all t [] r ∧ r.Sequenced)
      (fun _ hr _ => ⟨hr.1.step, hr.2.step⟩) hacc ⟨.start h w, .start h w⟩
  exact settles haccount hseq hdone

/-! ### Runs in which nothing fails -/

/-- Whether nothing was performed after the end of the run. -/
def Timely (r : Run J W) : Prop := ∀ e ∈ r.performed, e.phase ≠ .completed

namespace Timely

variable {r : Run J W}

theorem performs (h : r.Timely) (hp : r.phase ≠ .completed) (js : List J) :
    (js.foldl (Run.perform sys) r).Timely := by
  induction js generalizing r with
  | nil => exact h
  | cons j js ih =>
    refine ih (fun e he => ?_) (by rwa [phase_perform])
    rcases Sequenced.mem_performed_perform.mp he with he | rfl
    · exact h e he
    · exact hp

theorem step (h : r.Timely) : (r.step sys .all).Timely := by
  by_cases hround : r.round = []
  · rw [step_of_round_nil hround]
    exact h
  · rw [step_of_round hround]
    refine performs (r := { r with trampoline := r.trampoline.takeRound.2 }) h ?_ _
    rw [round_takeRound]
    intro hp
    have hp : r.trampoline.phase = .completed := hp
    exact hround (by simp [round, Trampoline.takeRound, hp, Phase.kind?])

theorem toEnd (h : r.Timely) (hacc : Acc (StepOf sys .all) r) :
    (r.toEnd sys .all hacc).Timely :=
  (toEnd_induction (fun _ hr _ => hr.step) hacc h).1

end Timely

/-- Whether all the work was performed that a run which began with a trampoline had accepted, and
nothing failed. -/
structure Flawless (t : Trampoline J) (r : Run J W) : Prop where
  actions : r.performedIn .actions = t.queue .action ++ r.accepted .action
  success : r.performedIn .success = t.queue .success ++ r.accepted .success
  closing : r.performedIn .closing = t.queue .closing ++ r.accepted .closing
  unfailing : ∀ e ∈ r.performed, e.failure = none

/-- The flags of a run tell whether it was flawless. -/
theorem Settles.flawless {r : Run J W} (h : Settles .all t r) (htimely : r.Timely)
    (hflags : r.outcome.flags.isTotalSuccess = true) : r.Flawless t := by
  obtain ⟨⟨⟨hactions, hsuccess⟩, herror⟩, hclosing⟩ :
      ((r.failedIn .actions = false ∧ r.failedIn .success = false) ∧ r.failedIn .error = false) ∧
        r.failedIn .closing = false := by
    simpa [Flags.isTotalSuccess, outcome] using hflags
  constructor
  case actions => exact h.actions (.inl rfl)
  case success => simpa [hactions] using h.success
  case closing => exact h.closing
  case unfailing =>
    intro e he
    cases hf : e.failure with
    | none => rfl
    | some f =>
      have hfailed : r.failedIn e.phase = true :=
        failedIn_eq_true.mpr ⟨e, he, rfl, by rw [hf]; rfl⟩
      cases hp : e.phase <;> rw [hp] at hfailed
      case completed => exact absurd hp (htimely e he)
      all_goals simp_all

/-- When the flags tell of a failure, there is one. -/
theorem exists_failure {r : Run J W} (hflags : r.outcome.flags.isTotalSuccess = false) :
    ∃ e ∈ r.performed, e.failure.isSome = true := by
  refine Classical.byContradiction fun hno => ?_
  have none (p : Phase) : r.failedIn p = false := by
    rw [← Bool.not_eq_true, failedIn_eq_true]
    rintro ⟨e, he, -, hf⟩
    exact hno ⟨e, he, hf⟩
  simp [Flags.isTotalSuccess, outcome, none] at hflags

end Run

end PartyGraph
