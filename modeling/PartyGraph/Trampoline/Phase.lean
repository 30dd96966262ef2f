/-!
# Phases of a trampoline

A trampoline runs actions, then the handlers for success or those for failure, then the handlers
that come last in either case. What may still be registered depends on the phase.

## Main definitions

* `Phase`, `JobKind`: the phases, and the kinds of work.
* `Phase.accepts`: what may be registered in a phase.
-/

namespace PartyGraph

/-- The phases of a run, in order; of `success` and `error` one is passed through. -/
inductive Phase where
  | actions
  | success
  | error
  | closing
  | completed
deriving DecidableEq, Repr

/-- The kinds of work, each run in the phase of its name. -/
inductive JobKind where
  | action
  | success
  | error
  | closing
deriving DecidableEq, Repr

/-- The phase as it is named in texts. -/
def Phase.text : Phase → String
  | actions => "actions"
  | success => "success"
  | error => "error"
  | closing => "finally"
  | completed => "completed"

/-- The phase as it is shown in a record. -/
def Phase.form : Phase → String
  | actions => "Actions"
  | success => "Success"
  | error => "Error"
  | closing => "Finally"
  | completed => "Completed"

/-- The kind as it is named in texts. -/
def JobKind.text : JobKind → String
  | action => "an action"
  | success => "a success handler"
  | error => "an error handler"
  | closing => "a finally handler"

/-- What may be registered in a phase: nothing that could no longer run. -/
def Phase.accepts : Phase → JobKind → Bool
  | actions, _ => true
  | success, .success => true
  | error, .error => true
  | completed, _ => false
  | _, .closing => true
  | _, _ => false

/-- The kind of work that runs in a phase. -/
def Phase.kind? : Phase → Option JobKind
  | actions => some .action
  | success => some .success
  | error => some .error
  | closing => some .closing
  | completed => none

/-- Number of phases that can still follow. -/
def Phase.rank : Phase → Nat
  | actions => 3
  | success => 2
  | error => 2
  | closing => 1
  | completed => 0

end PartyGraph
