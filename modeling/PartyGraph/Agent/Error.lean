import PartyGraph.Error
import PartyGraph.Text.Span

/-!
# Errors of an agent

## Main definitions

* `AgentError`: why an agent refuses a message or cannot be made, and how a handler failed.
-/

namespace PartyGraph

/-- Why an agent refuses a message or cannot be made, and how a handler failed. -/
inductive AgentError where
  | mailboxClosed (agent : String)
  | invalidHeartbeat (period : Text.Span)
  | handler (text : String)
  | panicked (text : String)
deriving DecidableEq, Repr

namespace AgentError

/-- Text of the error. -/
def message : AgentError → String
  | mailboxClosed agent => "agent '" ++ agent ++ "' mailbox is closed"
  | invalidHeartbeat period => "heartbeat period " ++ period.text ++ " is below the 20ms minimum"
  | handler text => text
  | panicked text => "handler panicked: " ++ text

/-- Code of the error. -/
def code : AgentError → String
  | mailboxClosed _ => "AGENT_MAILBOX_CLOSED"
  | invalidHeartbeat _ => "AGENT_INVALID_HEARTBEAT"
  | handler _ => "AGENT_HANDLER_FAILED"
  | panicked _ => "AGENT_PANICKED"

/-- Only what a handler reports may go better another time. -/
def isRecoverable : AgentError → Bool
  | handler _ => true
  | _ => false

instance : CodedError AgentError where
  code := code
  message := message
  isRecoverable := isRecoverable

end AgentError

end PartyGraph
