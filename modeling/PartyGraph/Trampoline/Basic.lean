import PartyGraph.Text.Quoted
import PartyGraph.Trampoline.Error

/-!
# Trampolines

A trampoline collects jobs in four queues, one for each kind, and remembers the phase of its run
and whether a runner has claimed it.

## Main definitions

* `Trampoline`: the queues and the phase.
* `Trampoline.register`: adds a job, unless the phase no longer accepts its kind.
* `Trampoline.enter`: moves to a phase and drops what can no longer run.
* `Trampoline.takeRound`: takes the jobs queued for the phase.
-/

namespace PartyGraph

/-- Jobs of type `J` waiting for a run, and the state of that run. -/
structure Trampoline (J : Type) where
  phase : Phase
  claimed : Bool
  actions : List J
  success : List J
  error : List J
  closing : List J

namespace Trampoline

variable {J : Type}

/-- A trampoline without jobs or runner. -/
def empty : Trampoline J := ⟨.actions, false, [], [], [], []⟩

instance : Inhabited (Trampoline J) := ⟨empty⟩

/-- The jobs of a kind, first come first. -/
def queue (t : Trampoline J) : JobKind → List J
  | .action => t.actions
  | .success => t.success
  | .error => t.error
  | .closing => t.closing

/-- The trampoline with other jobs of a kind. -/
def withQueue (t : Trampoline J) (k : JobKind) (jobs : List J) : Trampoline J :=
  match k with
  | .action => { t with actions := jobs }
  | .success => { t with success := jobs }
  | .error => { t with error := jobs }
  | .closing => { t with closing := jobs }

@[simp] theorem queue_withQueue_same (t : Trampoline J) (k : JobKind) (jobs : List J) :
    (t.withQueue k jobs).queue k = jobs := by
  cases k <;> rfl

theorem queue_withQueue_of_ne (t : Trampoline J) {k k' : JobKind} (h : k' ≠ k) (jobs : List J) :
    (t.withQueue k jobs).queue k' = t.queue k' := by
  cases k <;> cases k' <;> first | rfl | exact absurd rfl h

@[simp] theorem phase_withQueue (t : Trampoline J) (k : JobKind) (jobs : List J) :
    (t.withQueue k jobs).phase = t.phase := by
  cases k <;> rfl

/-- Adds a job at the end of the queue of its kind, unless the phase refuses the kind. -/
def register (t : Trampoline J) (k : JobKind) (job : J) :
    Except TrampolineError (Trampoline J) :=
  if t.phase.accepts k then .ok (t.withQueue k (t.queue k ++ [job]))
  else .error (.phaseViolation k t.phase)

/-- Binds the trampoline to a runner, which can be done once. -/
def claim (t : Trampoline J) : Except TrampolineError (Trampoline J) :=
  if t.claimed then .error .alreadyClaimed else .ok { t with claimed := true }

/-- Moves to a phase. The queues that no later phase reads are emptied. -/
def enter (t : Trampoline J) (p : Phase) : Trampoline J :=
  match p with
  | .actions => { t with phase := p }
  | .success => { t with phase := p, actions := [], error := [] }
  | .error => { t with phase := p, actions := [], success := [] }
  | .closing => { t with phase := p, success := [], error := [] }
  | .completed => { t with phase := p, actions := [], success := [], error := [], closing := [] }

@[simp] theorem phase_enter (t : Trampoline J) (p : Phase) : (t.enter p).phase = p := by
  cases p <;> rfl

/-- The jobs queued for the present phase, and the trampoline without them. -/
def takeRound (t : Trampoline J) : List J × Trampoline J :=
  match t.phase.kind? with
  | none => ([], t)
  | some k => (t.queue k, t.withQueue k [])

/-- What can be seen of a trampoline while it runs. -/
structure View where
  phase : Phase
  actions : Nat
  claimed : Bool
deriving DecidableEq, Repr

/-- What can be seen of a trampoline. -/
def view (t : Trampoline J) : View := ⟨t.phase, t.actions.length, t.claimed⟩

/-- Form of a trampoline. -/
def View.form (v : View) : String :=
  Text.record "Trampoline" [("phase", v.phase.form), ("actions", toString v.actions),
    ("claimed", Text.truth v.claimed)]

end Trampoline

end PartyGraph
