import PartyGraph.Error
import PartyGraph.Trampoline.Phase

/-!
# Errors of a trampoline and of its jobs

## Main definitions

* `TrampolineError`: why a registration or a run is refused.
* `Payload`: what a panic carries.
* `ActionError`: how a job failed; several failures make one.
* `ActionError.combine`: the failure of a run from those of its jobs.
-/

namespace PartyGraph

/-- Why a registration or a run is refused. -/
inductive TrampolineError where
  | alreadyExecuted
  | alreadyClaimed
  | phaseViolation (attempted : JobKind) (phase : Phase)
deriving DecidableEq, Repr

namespace TrampolineError

/-- Text of the error. -/
def message : TrampolineError → String
  | alreadyExecuted => "trampoline runner has already been executed"
  | alreadyClaimed => "trampoline is already bound to a runner"
  | phaseViolation attempted phase =>
    "cannot register " ++ attempted.text ++ " during the " ++ phase.text ++ " phase"

/-- Code of the error. -/
def code : TrampolineError → String
  | alreadyExecuted => "TRAMPOLINE_ALREADY_EXECUTED"
  | alreadyClaimed => "TRAMPOLINE_ALREADY_CLAIMED"
  | phaseViolation _ _ => "TRAMPOLINE_PHASE_VIOLATION"

instance : CodedError TrampolineError where
  code := code
  message := message
  isRecoverable _ := false

end TrampolineError

/-- What a panic carries: a text, or something else. -/
inductive Payload where
  | text (s : String)
  | other
deriving DecidableEq, Repr

/-- The payload in words. -/
def Payload.message : Payload → String
  | text s => s
  | other => "unknown panic payload"

/-- How a job failed. -/
inductive ActionError where
  | returnedFalse
  | failed (text : String)
  | panicked (text : String)
  | aggregate (failures : List ActionError)
deriving Repr

namespace ActionError

instance : Inhabited ActionError := ⟨returnedFalse⟩

mutual

/-- Text of the error. -/
def message : ActionError → String
  | returnedFalse => "an action returned false"
  | failed text => text
  | panicked text => "action panicked: " ++ text
  | aggregate failures =>
    toString failures.length ++ " actions failed: " ++ "; ".intercalate (messages failures)

/-- Texts of several errors. -/
def messages : List ActionError → List String
  | [] => []
  | e :: rest => message e :: messages rest

end

/-- Code of the error. -/
def code : ActionError → String
  | returnedFalse => "ACTION_RETURNED_FALSE"
  | failed _ => "ACTION_FAILED"
  | panicked _ => "ACTION_PANICKED"
  | aggregate _ => "ACTION_AGGREGATE"

instance : CodedError ActionError where
  code := code
  message := message
  isRecoverable _ := false

/-- The failures that an error stands for. -/
def failures : ActionError → List ActionError
  | aggregate all => all
  | single => [single]

/-- The failure of a run: none, the only one, or all together. -/
def combine : List ActionError → Option ActionError
  | [] => none
  | [e] => some e
  | all => some (aggregate all)

/-- A refused registration as the failure of the job that asked for it. -/
def ofTrampoline (e : TrampolineError) : ActionError := failed e.message

end ActionError

end PartyGraph
