import PartyGraph.Proofs.Trampoline.Course

/-!
# Runs up to the first failure

A run may be asked to give up its actions at the first failure. Until then it is the run that
performs all its actions, step by step: jobs find the same queues and the same world in both, so
there is nothing by which they could do anything else.

The first failure may be met in the middle of a round. The rest of the round has been taken out of
the queue then, and what the jobs before have registered waits in it. The one run performs both, the
other drops both and passes to the phase of errors from the very state that the failing job has
left (`Run.PartsAt`). Nothing that the former does later makes it pass to another phase, since a
failure is never taken back.

## Main definitions

* `Run.PartsAt`: where the two runs part.
* `Run.AgreesUpToFailure`: what the two runs have in common.

## Main results

* `Run.step_or_parts`: one step of both runs.
* `Run.agreesUpToFailure`: whole runs.
-/

namespace PartyGraph

namespace Run

variable {J W : Type} {sys : JobSystem J W} {mode : RunMode} {t : Trampoline J} {w : W}
  {r r' : Run J W}

/-! ### One step of both runs -/

variable (sys) in
/-- A round that halts is performed to its end when no action fails in it, and else up to the first
that does. -/
theorem performRound_true (hr : r.failedIn .actions = false) (js : List J) :
    (performRound sys true r js = js.foldl (perform sys) r ∧
        (js.foldl (perform sys) r).failedIn .actions = false) ∨
      ∃ done j rest, js = done ++ j :: rest ∧
        (done.foldl (perform sys) r).failedIn .actions = false ∧
        ((done.foldl (perform sys) r).perform sys j).failedIn .actions = true ∧
        performRound sys true r js = (done.foldl (perform sys) r).perform sys j := by
  induction js generalizing r with
  | nil => exact .inl ⟨rfl, hr⟩
  | cons j js ih =>
    rw [performRound, Bool.true_and]
    cases hj : (r.perform sys j).failedIn .actions with
    | true =>
      rw [if_pos rfl]
      exact .inr ⟨[], j, js, rfl, hr, hj, rfl⟩
    | false =>
      rw [if_neg Bool.false_ne_true]
      rcases ih hj with hall | ⟨done, i, rest, rfl, hdone, hi, hround⟩
      · exact .inl hall
      · exact .inr ⟨j :: done, i, rest, rfl, hdone, hi, hround⟩

/-- Outside of the phase of actions there is nothing to give up. -/
theorem step_untilFailure_of_phase_ne (h : r.phase ≠ .actions) :
    r.step sys .untilFailure = r.step sys .all := by
  have until_ : r.halts .untilFailure = false := by simp [halts, h]
  have all : r.halts .all = false := by simp [halts]
  by_cases hnil : r.round = []
  · rw [step_of_round_nil hnil, step_of_round_nil hnil]
  · rw [step_eq_of_round hnil, step_eq_of_round hnil, until_, all]

variable (sys) in
/-- As long as no action has failed, a step is the same in both runs and meets no failure, or it has
a round in which an action `j` is the first to fail. -/
theorem step_or_parts (hr : r.failedIn .actions = false) :
    (r.step sys .untilFailure = r.step sys .all ∧ (r.step sys .all).failedIn .actions = false) ∨
      r.phase = .actions ∧ ∃ done j rest, r.round = done ++ j :: rest ∧
        let mid := done.foldl (perform sys) { r with trampoline := r.trampoline.takeRound.2 }
        mid.failedIn .actions = false ∧ (mid.perform sys j).failedIn .actions = true ∧
          r.step sys .untilFailure = (mid.perform sys j).advance ∧
          r.step sys .all = rest.foldl (perform sys) (mid.perform sys j) := by
  by_cases hp : r.phase = .actions
  · by_cases hnil : r.round = []
    · rw [step_of_round_nil hnil, step_of_round_nil hnil]
      exact .inl ⟨rfl, hr⟩
    · have halts_ : r.halts .untilFailure = true := by simp [halts, hp]
      rw [step_eq_of_round hnil, step_of_round hnil, halts_]
      dsimp only
      rcases performRound_true sys
          (r := { r with trampoline := r.trampoline.takeRound.2 }) hr r.round with
        ⟨hall, hunfailed⟩ | ⟨done, j, rest, hround, hdone, hj, hhalted⟩
      · rw [hall, hunfailed]
        exact .inl ⟨rfl, rfl⟩
      · rw [hhalted, hj]
        refine .inr ⟨hp, done, j, rest, hround, hdone, hj, rfl, ?_⟩
        rw [hround, List.foldl_append, List.foldl_cons]
  · refine .inl ⟨step_untilFailure_of_phase_ne hp, ?_⟩
    rw [← hr]
    exact failedIn_congr (entriesIn_actions_steps sys .all hp 1).2

/-! ### Whole runs -/

/-- Where a run that gives up its actions at the first failure parts from the one that performs them
all: after `m` steps, in the middle of a round. Of the actions performed by then `before` succeeded
and `e`, the last, failed with `f`, and `r'` is the run as `e` has left it. -/
structure PartsAt (sys : JobSystem J W) (t : Trampoline J) (w : W) (m : Nat)
    (before : List (Performed J)) (e : Performed J) (f : ActionError) (r' : Run J W) : Prop where
  actions : ∀ x ∈ before ++ [e], x.phase = .actions
  succeeded : ∀ x ∈ before, x.failure = none
  failed : e.failure = some f
  performed : r'.performed = before ++ [e]
  /-- Until then both are one run. -/
  together : ∀ i ≤ m, steps sys .untilFailure i (start t w) = steps sys .all i (start t w)
  /-- The one performs the rest of the round, from the queues and the world that `e` has left. -/
  goesOn : ∃ rest : List J, steps sys .all (m + 1) (start t w) = rest.foldl (perform sys) r'
  /-- The other passes to the phase of errors with all else as `e` has left it. -/
  leaves : steps sys .untilFailure (m + 1) (start t w)
    = { r' with trampoline := r'.trampoline.enter .error }

/-- What a run that gives up its actions at the first failure has in common with the run that begins
with the same jobs and the same world and performs all its actions. -/
structure AgreesUpToFailure (sys : JobSystem J W) (t : Trampoline J) (w : W) : Prop where
  /-- As long as no action has failed, both are one run, to its end if it comes to one. -/
  unfailed : ∀ n, (steps sys .all n (start t w)).failedIn .actions = false →
    steps sys .untilFailure n (start t w) = steps sys .all n (start t w)
  /-- When actions have failed, the runs have parted at the first of them. The one has performed
  more actions since and reports the failure first of all, the other performs no action any more
  and reports this failure alone. -/
  failed : ∀ n, (steps sys .all n (start t w)).failedIn .actions = true →
    ∃ m before e f r', m < n ∧ PartsAt sys t w m before e f r' ∧
      (∃ later, (steps sys .all n (start t w)).entriesIn .actions = before ++ e :: later) ∧
      (∃ more, (steps sys .all n (start t w)).failuresIn .actions = f :: more ∧
        (steps sys .all n (start t w)).outcome.failure = ActionError.combine (f :: more)) ∧
      ∀ i, m < i →
        (steps sys .untilFailure i (start t w)).entriesIn .actions = before ++ [e] ∧
        (steps sys .untilFailure i (start t w)).outcome.failure = some f
  /-- When both are over, they have passed through the same phases. -/
  phases : ∀ n m, (steps sys .all n (start t w)).isDone = true →
    (steps sys .untilFailure m (start t w)).isDone = true →
    ∀ p, (∃ i, (steps sys .untilFailure i (start t w)).phase = p) ↔
      ∃ i, (steps sys .all i (start t w)).phase = p

theorem untilFailure_eq_all {n : Nat}
    (h : (steps sys .all n (start t w)).failedIn .actions = false) :
    steps sys .untilFailure n (start t w) = steps sys .all n (start t w) := by
  induction n with
  | zero => rfl
  | succ n ih =>
    have hn : (steps sys .all n (start t w)).failedIn .actions = false := by
      rw [← Bool.not_eq_true] at h ⊢
      exact fun hn => h (failedIn_mono (prefix_performed_of_le sys .all (Nat.le_succ n) _) hn)
    rw [steps_succ, steps_succ, ih hn]
    rcases step_or_parts sys hn with ⟨hsame, -⟩ | ⟨-, done, j, rest, -, -, hj, -, hall⟩
    · exact hsame
    · rw [steps_succ, hall, failedIn_mono (prefix_performed_foldl rest _) hj] at h
      cases h

variable (sys) in
/-- The runs part where the first action fails. -/
theorem exists_partsAt (ht : t.phase = .actions) {m : Nat}
    (hm : (steps sys .all m (start t w)).failedIn .actions = false)
    (hfails : (steps sys .all (m + 1) (start t w)).failedIn .actions = true) :
    ∃ before e f r', PartsAt sys t w m before e f r' := by
  rw [steps_succ] at hfails
  rcases step_or_parts sys hm with
    ⟨-, hunfailed⟩ | ⟨hp, done, j, rest, -, hdone, hj, huntil, hall⟩
  · rw [hunfailed] at hfails
    cases hfails
  · let taken : Run J W := { steps sys .all m (start t w) with
      trampoline := (steps sys .all m (start t w)).trampoline.takeRound.2 }
    let mid := done.foldl (perform sys) taken
    have hmid : mid.phase = .actions :=
      (phase_foldl done taken).trans ((round_takeRound _).trans hp)
    have hactions : ∀ x ∈ mid.performed, x.phase = .actions :=
      ((sequenced_steps sys .all ht w m).takeRound.foldl done).phase_eq_actions hmid
    obtain ⟨f, hf⟩ := exists_failure_of_perform hdone hj
    refine ⟨mid.performed, mid.entry sys j, f, mid.perform sys j, ?_⟩
    constructor
    case actions =>
      intro x hx
      rcases List.mem_append.mp hx with hx | hx
      · exact hactions x hx
      · rw [List.mem_singleton.mp hx]
        exact hmid
    case succeeded => exact fun x hx => failedIn_eq_false.mp hdone x hx (hactions x hx)
    case failed => exact hf
    case performed => exact performed_perform mid j
    case together =>
      intro i hi
      refine untilFailure_eq_all ?_
      rw [← Bool.not_eq_true] at hm ⊢
      exact fun hfailed => hm (failedIn_mono (prefix_performed_of_le sys .all hi _) hfailed)
    case goesOn => exact ⟨rest, (steps_succ m _).trans hall⟩
    case leaves =>
      have hnext : (mid.perform sys j).nextPhase = .error := by
        rw [nextPhase, phase_perform, hmid]
        exact if_pos hj
      rw [steps_succ, untilFailure_eq_all hm, huntil]
      change (mid.perform sys j).advance = _
      rw [advance, hnext]

namespace PartsAt

variable {m : Nat} {before : List (Performed J)} {e : Performed J} {f : ActionError}

theorem filter_eq (h : PartsAt sys t w m before e f r') :
    (before ++ [e]).filter (·.phase = .actions) = before ++ [e] :=
  List.filter_eq_self.mpr fun x hx => decide_eq_true (h.actions x hx)

theorem failures_eq (h : PartsAt sys t w m before e f r') :
    (before ++ [e]).filterMap (·.failure) = [f] := by
  rw [List.filterMap_append, List.filterMap_eq_nil_iff.mpr h.succeeded]
  simp [h.failed]

/-- The run of all actions has more of them behind the first failure. -/
theorem entriesIn_all (h : PartsAt sys t w m before e f r') {n : Nat} (hn : m < n) :
    ∃ later, (steps sys .all n (start t w)).entriesIn .actions = before ++ e :: later := by
  obtain ⟨rest, hrest⟩ := h.goesOn
  have hround : before ++ [e] <+: (steps sys .all (m + 1) (start t w)).performed := by
    rw [hrest, ← h.performed]
    exact prefix_performed_foldl rest r'
  obtain ⟨later, hlater⟩ := hround.trans (prefix_performed_of_le sys .all hn _)
  refine ⟨later.filter (·.phase = .actions), ?_⟩
  rw [entriesIn, ← hlater, List.filter_append, h.filter_eq, List.append_assoc,
    List.singleton_append]

/-- The other run performs no action any more. -/
theorem entriesIn_untilFailure (h : PartsAt sys t w m before e f r') {i : Nat} (hi : m < i) :
    (steps sys .untilFailure i (start t w)).phase ≠ .actions ∧
      (steps sys .untilFailure i (start t w)).entriesIn .actions = before ++ [e] := by
  obtain ⟨k, rfl⟩ := Nat.exists_eq_add_of_le (show m + 1 ≤ i from hi)
  rw [steps_add, h.leaves]
  obtain ⟨hphase, hentries⟩ := entriesIn_actions_steps sys .untilFailure
    (r := { r' with trampoline := r'.trampoline.enter .error }) (by simp [phase]) k
  refine ⟨hphase, hentries.trans ?_⟩
  rw [entriesIn, h.performed, h.filter_eq]

theorem failuresIn_untilFailure (h : PartsAt sys t w m before e f r') {i : Nat} (hi : m < i) :
    (steps sys .untilFailure i (start t w)).failuresIn .actions = [f] := by
  rw [failuresIn_eq, (h.entriesIn_untilFailure hi).2, h.failures_eq]

end PartsAt

/-- When an action has failed, the runs have parted before. -/
theorem exists_partsAt_lt (ht : t.phase = .actions) {n : Nat}
    (hn : (steps sys .all n (start t w)).failedIn .actions = true) :
    ∃ m before e f r', m < n ∧ PartsAt sys t w m before e f r' := by
  obtain ⟨m, hmn, hm, hnext⟩ := exists_last_before
    (P := fun n => (steps sys .all n (start t w)).failedIn .actions = false) rfl (n := n)
    (by simp [hn])
  obtain ⟨before, e, f, r', hparts⟩ := exists_partsAt sys ht hm (by simpa using hnext)
  exact ⟨m, before, e, f, r', hmn, hparts⟩

/-- When both runs are over, an action failed in both or in none. -/
theorem failedIn_untilFailure (ht : t.phase = .actions) {n m : Nat}
    (hall : (steps sys .all n (start t w)).isDone = true)
    (huntil : (steps sys .untilFailure m (start t w)).isDone = true) :
    (steps sys .untilFailure m (start t w)).failedIn .actions
      = (steps sys .all n (start t w)).failedIn .actions := by
  have hleft : (steps sys .untilFailure m (start t w)).phase ≠ .actions := by
    simp [phase_of_isDone huntil]
  cases hn : (steps sys .all n (start t w)).failedIn .actions with
  | false =>
    have heq := untilFailure_eq_all hn
    have hn' : (steps sys .untilFailure n (start t w)).phase ≠ .actions := by
      simp [heq, phase_of_isDone hall]
    rw [failedIn_actions_eq hleft hn', heq, hn]
  | true =>
    obtain ⟨k, before, e, f, r', -, hparts⟩ := exists_partsAt_lt ht hn
    rw [failedIn_actions_eq hleft (hparts.entriesIn_untilFailure (Nat.lt_succ_self k)).1, failedIn,
      hparts.failuresIn_untilFailure (Nat.lt_succ_self k)]
    rfl

/-- **A run that gives up its actions at the first failure is the run of all of them up to there**,
whatever jobs do. -/
theorem agreesUpToFailure (ht : t.phase = .actions) (w : W) : AgreesUpToFailure sys t w := by
  constructor
  case unfailed => exact fun n => untilFailure_eq_all
  case failed =>
    intro n hn
    obtain ⟨m, before, e, f, r', hmn, hparts⟩ := exists_partsAt_lt ht hn
    obtain ⟨later, hlater⟩ := hparts.entriesIn_all hmn
    have hfailures : (steps sys .all n (start t w)).failuresIn .actions
        = f :: later.filterMap (·.failure) := by
      rw [failuresIn_eq, hlater, List.append_cons, List.filterMap_append, hparts.failures_eq]
      rfl
    refine ⟨m, before, e, f, r', hmn, hparts, ⟨later, hlater⟩, ⟨_, hfailures, ?_⟩, fun i hi => ?_⟩
    · rw [outcome, hfailures]
    · refine ⟨(hparts.entriesIn_untilFailure hi).2, ?_⟩
      rw [outcome, hparts.failuresIn_untilFailure hi]
      rfl
  case phases =>
    intro n m hall huntil p
    rw [visits_iff ht hall, visits_iff ht huntil, failedIn_untilFailure ht hall huntil]

/-- A job that registers `noting` and succeeds. -/
def sowing : Deed JobCommand JobCommand.Answer :=
  .mk (.register .action noting fun _ => .finish .succeeded)

/-- A trampoline on which the second of three actions panics, when the first has registered a
fourth, with a handler of each kind. -/
def halfway : Trampoline Placed :=
  ⟨.actions, true, [⟨0, sowing⟩, ⟨0, panicking⟩, ⟨0, noting⟩], [⟨0, noting⟩], [⟨0, panicking⟩],
    [⟨0, noting⟩]⟩

theorem agreesUpToFailure_halfway :
    halfway.phase = .actions ∧
      (steps Placed.system .all 8 (start halfway ⟨#[Memory.empty], []⟩)).isDone = true ∧
      (steps Placed.system .untilFailure 6 (start halfway ⟨#[Memory.empty], []⟩)).isDone = true ∧
      ((steps Placed.system .all 8 (start halfway ⟨#[Memory.empty], []⟩)).performedIn
        .actions).length = 5 ∧
      ((steps Placed.system .untilFailure 6 (start halfway ⟨#[Memory.empty], []⟩)).performedIn
        .actions).length = 2 ∧
      AgreesUpToFailure Placed.system halfway ⟨#[Memory.empty], []⟩ :=
  ⟨rfl, rfl, rfl, rfl, rfl, agreesUpToFailure rfl _⟩

end Run

end PartyGraph
