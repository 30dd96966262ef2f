import PartyGraph.Trampoline.Script

/-!
# Runs of a trampoline

A run works through the queues of a trampoline in rounds. A round takes the jobs queued for the
present phase and performs them in order; what they register waits for a later round. A phase is
over when its queue is empty at the start of a round. The phase of actions is followed by that of
success when no action failed and by that of errors otherwise, and then by the closing phase. A
failure does not end a round, except that a run may be asked to give up its actions at the first
one.

A round is a step of the run. A run may take steps without end, since jobs may keep registering
jobs; it comes to its end when no chain of jobs each registering the next is infinite.

This is what happens as long as the jobs of the run are the only ones to use the trampoline. For
what happens when others use it meanwhile, `PartyGraph.Trampoline.Stride` tells a run in smaller
parts, which make up these steps.

## Main definitions

* `JobSystem`: what jobs do, and how the world takes their commands.
* `Run`: a run under way, with the jobs performed so far.
* `Run.step`: one round, or the passage to the next phase.
* `Run.outcome`: the failure and the flags that it comes to.
* `JobSystem.Below`: the relation between a job and those that may register it.
* `Run.toEnd`: all steps of a run that comes to its end.

## Main results

* `wellFounded_allBelow`: rounds of jobs decrease when jobs do.
* `acc_stepOf`: over a well-founded `JobSystem.Below`, every run comes to its end.
-/

namespace PartyGraph

/-- What jobs of type `J` do, and how a world of type `W` takes their commands. -/
structure JobSystem (J W : Type) where
  Command : Type
  Answer : Command → Type
  script : J → Script J Command Answer
  answer : (c : Command) → W → Answer c × W

namespace JobSystem

variable {J W : Type}

/-- Whether the script of `j` may register `k`. -/
def Below (sys : JobSystem J W) (k j : J) : Prop := (sys.script j).Mentions k

end JobSystem

/-- Whether a run performs all actions or gives them up at the first failure. -/
inductive RunMode where
  | all
  | untilFailure
deriving DecidableEq, Repr

/-- A job performed in a phase, with its failure if it failed and the registrations that it
tried. -/
structure Performed (J : Type) where
  phase : Phase
  job : J
  failure : Option ActionError
  registrations : List (Registration J)

/-- A run under way. -/
structure Run (J W : Type) where
  trampoline : Trampoline J
  world : W
  performed : List (Performed J)

namespace Run

variable {J W : Type}

/-- A run before its first step. -/
def start (t : Trampoline J) (w : W) : Run J W := ⟨t, w, []⟩

/-- The present phase. -/
def phase (r : Run J W) : Phase := r.trampoline.phase

/-- Whether the run is over. -/
def isDone (r : Run J W) : Bool := r.phase = .completed

/-- The failures met in a phase, in order. -/
def failuresIn (r : Run J W) (p : Phase) : List ActionError :=
  r.performed.filterMap fun e => if e.phase = p then e.failure else none

/-- Whether a job failed in a phase. -/
def failedIn (r : Run J W) (p : Phase) : Bool := !(r.failuresIn p).isEmpty

/-- The phase that follows the present one. -/
def nextPhase (r : Run J W) : Phase :=
  match r.phase with
  | .actions => if r.failedIn .actions then .error else .success
  | .success => .closing
  | .error => .closing
  | .closing => .completed
  | .completed => .completed

/-- Passes to the next phase. -/
def advance (r : Run J W) : Run J W := { r with trampoline := r.trampoline.enter r.nextPhase }

/-- Performs one job. -/
def perform (sys : JobSystem J W) (r : Run J W) (j : J) : Run J W :=
  let result := (sys.script j).run sys.answer r.trampoline r.world
  ⟨result.trampoline, result.world,
    r.performed ++ [⟨r.phase, j, result.ending.failure?, result.registrations⟩]⟩

/-- Performs jobs in order. When `halting`, no job is performed after an action that failed. -/
def performRound (sys : JobSystem J W) (halting : Bool) (r : Run J W) : List J → Run J W
  | [] => r
  | j :: rest =>
    let r' := r.perform sys j
    if halting && r'.failedIn .actions then r' else performRound sys halting r' rest

/-- Whether a failure ends the present phase. -/
def halts (mode : RunMode) (r : Run J W) : Bool := mode = .untilFailure && r.phase = .actions

/-- One round, or the passage to the next phase when there is nothing to perform. -/
def step (sys : JobSystem J W) (mode : RunMode) (r : Run J W) : Run J W :=
  match r.trampoline.takeRound with
  | ([], _) => r.advance
  | (jobs, t) =>
    let r' := performRound sys (r.halts mode) { r with trampoline := t } jobs
    if r.halts mode && r'.failedIn .actions then r'.advance else r'

/-- The run after a number of steps. -/
def steps (sys : JobSystem J W) (mode : RunMode) : Nat → Run J W → Run J W
  | 0, r => r
  | n + 1, r => steps sys mode n (r.step sys mode)

/-! ### What a run comes to -/

/-- What went wrong in a run. -/
structure Flags where
  error : Bool
  successHandler : Bool
  errorHandler : Bool
  closingHandler : Bool
deriving DecidableEq, Repr

namespace Flags

/-- Whether nothing went wrong. -/
def isTotalSuccess (f : Flags) : Bool :=
  !f.error && !f.successHandler && !f.errorHandler && !f.closingHandler

/-- The flags as a number, one bit for each. -/
def bits (f : Flags) : Nat :=
  f.error.toNat + 2 * f.successHandler.toNat + 4 * f.errorHandler.toNat
    + 8 * f.closingHandler.toNat

/-- The names of the flags that are set. -/
def names (f : Flags) : List String :=
  (if f.error then ["ERROR"] else [])
    ++ (if f.successHandler then ["HAS_SUCCESS_EXCEPTION"] else [])
    ++ (if f.errorHandler then ["HAS_ERROR_EXCEPTION"] else [])
    ++ (if f.closingHandler then ["HAS_FINALLY_EXCEPTION"] else [])

/-- Form of the flags. -/
def form (f : Flags) : String :=
  "TrampolineResult(" ++ (if f.names.isEmpty then "0x0" else " | ".intercalate f.names) ++ ")"

end Flags

/-- What a run comes to: the failure of its actions, and the flags. -/
structure Outcome where
  flags : Flags
  failure : Option ActionError

/-- The outcome of the jobs performed so far. -/
def outcome (r : Run J W) : Outcome where
  flags := ⟨r.failedIn .actions, r.failedIn .success, r.failedIn .error, r.failedIn .closing⟩
  failure := ActionError.combine (r.failuresIn .actions)

/-- The outcome with failures of handlers passed over. -/
def Outcome.toExcept (o : Outcome) : Except ActionError Flags :=
  match o.failure with
  | some e => .error e
  | none => .ok o.flags

end Run

/-! ### Rounds decrease when jobs do -/

section AllBelow

variable {J : Type} {below : J → J → Prop}

/-- Every job of the later round lies below one of the earlier round, which is not empty. -/
def AllBelow (below : J → J → Prop) (later earlier : List J) : Prop :=
  earlier ≠ [] ∧ ∀ k ∈ later, ∃ j ∈ earlier, below k j

theorem acc_allBelow_of_subset {xs ys : List J} (h : Acc (AllBelow below) xs)
    (hsub : ∀ y ∈ ys, y ∈ xs) : Acc (AllBelow below) ys := by
  refine ⟨ys, fun zs hz => h.inv ⟨?_, fun k hk => ?_⟩⟩
  · intro hnil
    subst hnil
    cases ys with
    | nil => exact hz.1 rfl
    | cons y _ => exact absurd (hsub y (by simp)) List.not_mem_nil
  · obtain ⟨j, hj, hkj⟩ := hz.2 k hk
    exact ⟨j, hsub j hj, hkj⟩

theorem acc_allBelow_nil : Acc (AllBelow below) [] :=
  ⟨_, fun _ h => absurd rfl h.1⟩

theorem acc_allBelow_append {xs ys : List J} (hx : Acc (AllBelow below) xs)
    (hy : Acc (AllBelow below) ys) : Acc (AllBelow below) (xs ++ ys) := by
  induction hx generalizing ys with
  | intro xs hxacc ih =>
    refine ⟨_, fun zs hz => ?_⟩
    classical
    have split : ∀ k ∈ zs, (∃ j ∈ xs, below k j) ∨ ∃ j ∈ ys, below k j := by
      intro k hk
      obtain ⟨j, hj, hkj⟩ := hz.2 k hk
      rcases List.mem_append.1 hj with hj | hj
      · exact .inl ⟨j, hj, hkj⟩
      · exact .inr ⟨j, hj, hkj⟩
    have low : Acc (AllBelow below) (zs.filter fun k => decide (∃ j ∈ ys, below k j)) := by
      by_cases hnil : ys = []
      · subst hnil
        have : (zs.filter fun k => decide (∃ j ∈ ([] : List J), below k j)) = [] := by simp
        rw [this]
        exact acc_allBelow_nil
      · exact hy.inv ⟨hnil, fun k hk => by simpa using (List.mem_filter.1 hk).2⟩
    by_cases hnil : xs = []
    · refine acc_allBelow_of_subset low fun k hk => List.mem_filter.2 ⟨hk, ?_⟩
      rcases split k hk with ⟨j, hj, _⟩ | h
      · rw [hnil] at hj
        cases hj
      · simpa using h
    · have high := ih (zs.filter fun k => decide (∃ j ∈ xs, below k j))
        ⟨hnil, fun k hk => by simpa using (List.mem_filter.1 hk).2⟩ low
      refine acc_allBelow_of_subset high fun k hk => ?_
      rcases split k hk with h | h
      · exact List.mem_append_left _ (List.mem_filter.2 ⟨hk, by simpa using h⟩)
      · exact List.mem_append_right _ (List.mem_filter.2 ⟨hk, by simpa using h⟩)

theorem acc_allBelow_of_forall {xs : List J} (h : ∀ x ∈ xs, Acc (AllBelow below) [x]) :
    Acc (AllBelow below) xs := by
  induction xs with
  | nil => exact acc_allBelow_nil
  | cons x xs ih =>
    exact acc_allBelow_append (h x (by simp)) (ih fun y hy => h y (List.mem_cons_of_mem _ hy))

theorem acc_allBelow_singleton {j : J} (h : Acc below j) : Acc (AllBelow below) [j] := by
  induction h with
  | intro j _ ih =>
    refine ⟨_, fun zs hz => acc_allBelow_of_forall fun k hk => ?_⟩
    obtain ⟨i, hi, hki⟩ := hz.2 k hk
    rw [List.mem_singleton.1 hi] at hki
    exact ih k hki

theorem wellFounded_allBelow (wf : WellFounded below) : WellFounded (AllBelow below) :=
  ⟨fun _ => acc_allBelow_of_forall fun j _ => acc_allBelow_singleton (wf.apply j)⟩

end AllBelow

/-! ### Runs that come to their end -/

namespace Run

variable {J W : Type} {sys : JobSystem J W} {mode : RunMode}

/-- The jobs of the next round. -/
def round (r : Run J W) : List J := r.trampoline.takeRound.1

@[simp] theorem phase_perform (r : Run J W) (j : J) : (r.perform sys j).phase = r.phase := by
  simp [perform, phase]

@[simp] theorem phase_performRound {halting : Bool} (r : Run J W) (jobs : List J) :
    (performRound sys halting r jobs).phase = r.phase := by
  induction jobs generalizing r with
  | nil => rfl
  | cons j rest ih =>
    unfold performRound
    dsimp only
    split
    · exact phase_perform r j
    · rw [ih, phase_perform]

theorem mem_queue_performRound {halting : Bool} {r : Run J W} {jobs : List J} {k : JobKind}
    {j : J} (h : j ∈ (performRound sys halting r jobs).trampoline.queue k) :
    j ∈ r.trampoline.queue k ∨ ∃ i ∈ jobs, sys.Below j i := by
  induction jobs generalizing r with
  | nil => exact .inl h
  | cons i rest ih =>
    have one : ∀ {j}, j ∈ (r.perform sys i).trampoline.queue k →
        j ∈ r.trampoline.queue k ∨ ∃ x ∈ i :: rest, sys.Below j x := by
      intro j hj
      rcases Script.mem_queue_run hj with hj | hj
      · exact .inl hj
      · exact .inr ⟨i, by simp, hj⟩
    unfold performRound at h
    dsimp only at h
    split at h
    · exact one h
    · rcases ih h with h | ⟨x, hx, hjx⟩
      · exact one h
      · exact .inr ⟨x, List.mem_cons_of_mem _ hx, hjx⟩

theorem rank_nextPhase_lt {r : Run J W} (h : r.phase ≠ .completed) :
    r.nextPhase.rank < r.phase.rank := by
  unfold nextPhase
  cases hp : r.phase with
  | actions =>
    dsimp only
    split <;> decide
  | success => simp [Phase.rank]
  | error => simp [Phase.rank]
  | closing => simp [Phase.rank]
  | completed => exact absurd hp h

@[simp] theorem phase_advance (r : Run J W) : r.advance.phase = r.nextPhase :=
  Trampoline.phase_enter ..

theorem round_takeRound (r : Run J W) :
    ({ r with trampoline := r.trampoline.takeRound.2 } : Run J W).phase = r.phase := by
  unfold phase Trampoline.takeRound
  split <;> simp

/-- What a step makes smaller: the phases still to come, or else the jobs of the next round. -/
def Smaller (sys : JobSystem J W) : Phase × List J → Phase × List J → Prop :=
  InvImage (Prod.Lex (· < ·) (AllBelow sys.Below)) fun x => (x.1.rank, x.2)

theorem smaller_step {r : Run J W} (h : r.isDone = false) :
    Smaller sys ((r.step sys mode).phase, (r.step sys mode).round) (r.phase, r.round) := by
  have hne : r.phase ≠ .completed := by simpa [isDone] using h
  unfold step
  split
  · refine Prod.Lex.left _ _ ?_
    rw [phase_advance]
    exact rank_nextPhase_lt hne
  · next jobs t hnil htake =>
    have hphase : ({ r with trampoline := t } : Run J W).phase = r.phase := by
      have := round_takeRound r
      rwa [htake] at this
    dsimp only
    split
    · refine Prod.Lex.left _ _ ?_
      have hp : (performRound sys (r.halts mode) { r with trampoline := t } jobs).phase
          = r.phase := by rw [phase_performRound, hphase]
      rw [phase_advance, ← hp]
      exact rank_nextPhase_lt (by rwa [hp])
    · have hround : r.round = jobs := by simp [round, htake]
      rw [phase_performRound, hphase, hround]
      refine Prod.Lex.right _ ⟨hnil, fun j hj => ?_⟩
      unfold round Trampoline.takeRound at hj
      split at hj
      · cases hj
      · next k hk =>
        have hk' : r.trampoline.phase.kind? = some k := by
          rw [← hk]
          have same : (performRound sys (r.halts mode) { r with trampoline := t } jobs).phase
              = r.phase := by rw [phase_performRound, hphase]
          exact congrArg Phase.kind? same.symm
        rcases mem_queue_performRound hj with hj | hj
        · have : t = r.trampoline.withQueue k [] := by
            have := htake
            unfold Trampoline.takeRound at this
            rw [hk'] at this
            exact (Prod.mk.inj this).2.symm
          subst this
          simp at hj
        · exact hj

/-- Whether the first run is the step after the second, which is not over. -/
def StepOf (sys : JobSystem J W) (mode : RunMode) (later earlier : Run J W) : Prop :=
  earlier.isDone = false ∧ later = earlier.step sys mode

/-- A proof of accessibility that begins with `n` applications of the constructor, so that closed
terms can be evaluated for `n` steps without looking into the proof given. -/
theorem acc_deepened {α : Type} {rel : α → α → Prop} : (n : Nat) → {x : α} → Acc rel x → Acc rel x
  | 0, _, h => h
  | n + 1, _, h => ⟨_, fun _ hy => acc_deepened n (h.inv hy)⟩

/-- When no chain of jobs each registering the next is infinite, every run comes to its end. -/
theorem acc_stepOf (wf : WellFounded sys.Below) (mode : RunMode) (r : Run J W) :
    Acc (StepOf sys mode) r := by
  have wfs : WellFounded (Smaller sys) :=
    InvImage.wf _ (Prod.lex ⟨_, Nat.lt_wfRel.wf⟩ ⟨_, wellFounded_allBelow wf⟩).wf
  have : WellFounded (InvImage (Smaller sys) fun r : Run J W => (r.phase, r.round)) :=
    InvImage.wf _ wfs
  refine acc_deepened 64 (Subrelation.accessible ?_ (this.apply r))
  rintro later earlier ⟨hd, rfl⟩
  exact smaller_step hd

/-- All steps of a run that comes to its end, by recursion on the proof that it does. -/
def toEnd (sys : JobSystem J W) (mode : RunMode) (r : Run J W)
    (h : Acc (StepOf sys mode) r) : Run J W :=
  WellFounded.fixF
    (fun r next => if hd : r.isDone then r else next (r.step sys mode) ⟨by simpa using hd, rfl⟩)
    r h

/-- A run to its end is the run itself when it is over, and else the run after one step to its
end. -/
theorem toEnd_eq (sys : JobSystem J W) (mode : RunMode) (r : Run J W)
    (h : Acc (StepOf sys mode) r) :
    toEnd sys mode r h = if hd : r.isDone then r
      else toEnd sys mode (r.step sys mode) (h.inv ⟨by simpa using hd, rfl⟩) := by
  unfold toEnd
  rw [WellFounded.fixF_eq]

end Run

end PartyGraph
