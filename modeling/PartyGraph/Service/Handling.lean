import PartyGraph.Service.Pass

/-!
# The agent of a service

The agent takes one message after the other. It starts and stops with a pass over the drivers, and
in between adds and destroys parties. When an addition comes to be handled it is checked once more,
since names may have been taken and owners destroyed while it waited.

## Main definitions

* `Service.addBatch`, `Service.destroyParty`: the two jobs.
* `Service.deliver`: the agent takes one message and handles it.
* `Service.settle`: the agent works until it has nothing to do.
* `Service.Move`, `Service.play`: any sequence of what can happen to a service.
-/

namespace PartyGraph

namespace Service

/-- The parties of a batch in the order in which their names are checked: those that the owner will
own, then those that its tenant domains own. -/
def candidates (s : Service) (b : Batch) : List PartyId :=
  b.parties ++ b.tenants.flatMap fun t => s.graph.remotesOf (.owned t)

/-- Why a batch cannot be added now, if so. -/
def batchRefusal (s : Service) (b : Batch) : Option IdentityError :=
  if s.agent.status ≠ .running then some .notRunning
  else if s.ownerGoes b.owner then some (.ownerDestroyed (s.graph.nameText b.owner))
  else ((s.candidates b).find? fun id => s.graph.keys.contains (s.graph.key id)).map
    fun id => .nameCollision (s.graph.nameText (.owned id))

/-- Adds the parties of a batch. -/
def addBatch (s : Service) (b : Batch) : Except IdentityError Unit × Service :=
  match s.batchRefusal b with
  | some e => (.error e, s)
  | none =>
    match s.setUpDynamic b with
    | (.ok (), s) => (.ok (), s)
    | (.error e, s) => (.error (.setupFailed e), s)

/-- Takes a remote party out of the graph. -/
def removeRemote (s : Service) (id : PartyId) (owner : PartyRef) : Service :=
  ((s.change (.remove id)).tellOfRemote owner (.disappeared id)).change (.complete id)

/-- Takes a tenant domain out of the graph, and the remote parties that it owns. -/
def removeTenant (s : Service) (id : PartyId) : Service :=
  let s := s.change (.remove id)
  let remotes := s.graph.remotesOf (.owned id)
  let s := remotes.foldl
    (fun s r => (s.tellOfRemote (.owned id) (.disappeared r)).change (.complete r))
    (s.change (.clear id))
  (s.tell .all (.party (.disappeared id))).change (.complete id)

/-- Destroys a party, unless that was done. -/
def destroyParty (s : Service) (id : PartyId) : Service :=
  if s.graph.isGone id then s
  else
    let s := s.tearDownDynamic id
    match s.graph.party? id with
    | none => s
    | some p => if p.isTenant then s.removeTenant id else s.removeRemote id p.owner

/-- The initialization is decided by the pass at the start. -/
def decideInitialization (s : Service) : Service :=
  let (result, s) := s.setUp
  let i := match result with
    | .ok () => Initialization.succeeded
    | .error e => .failed e
  { s with initialization := i }.record (.initialized i)

/-- Handles a call of the agent. Nothing is left to do when the service is gone, but those who wait
for an addition are answered. -/
def handle (s : Service) : Agent.Call IdentityJob → Service
  | .start => if s.dropped then s else s.decideInitialization
  | .job (.add b) =>
    if s.dropped then s.answer b.ticket (.error .agentStopped)
    else
      let (outcome, s) := s.addBatch b
      s.answer b.ticket outcome
  | .job (.destroy id) => if s.dropped then s else s.destroyParty id
  | .heartbeat count => if s.dropped then s else s.tell .heartbeat (.beat count)
  | .stop => if s.dropped then s else s.tearDown

/-- Answers those who wait for additions that the agent has dropped. -/
def answerDropped (s : Service) (jobs : List IdentityJob) : Service :=
  jobs.foldl
    (fun s job =>
      match job with
      | .add b => s.answer b.ticket (.error .agentStopped)
      | .destroy _ => s)
    s

/-- The last owner lets go of the service. An agent that was not started drops its mailbox. Whoever
has had an addition checked and not enlisted yet still holds the service. -/
def drop (s : Service) : Service :=
  if s.dropped || !s.admissions.isEmpty then s
  else
    let jobs := match s.agent.loop with
      | .absent => s.agent.mailbox.filterMap Agent.Message.job?
      | _ => []
    { s with dropped := true, agent := s.agent.release }.answerDropped jobs

/-- The agent takes a message and handles it, if there is one. -/
def deliver (s : Service) : Option Service :=
  match s.agent.take with
  | none => none
  | some (.exit dropped, agent) => some ({ s with agent }.answerDropped dropped)
  | some (.call c, agent) =>
    let s := ({ s with agent }.record (.handling c)).handle c
    some { s with agent := s.agent.finish }

/-- The agent takes at most `n` messages. -/
def deliverUpTo : Nat → Service → Service
  | 0, s => s
  | n + 1, s =>
    match s.deliver with
    | none => s
    | some s => deliverUpTo n s

/-- A bound on the messages that the agent takes before it has nothing to do, when drivers add no
parties: those in the mailbox, one for the destruction of each party, and the start, the stop and
the end. -/
def settleBound (s : Service) : Nat := s.agent.mailbox.length + s.graph.parties.length + 3

/-- The agent works until it has nothing to do. -/
def settle (s : Service) : Service := s.deliverUpTo s.settleBound

/-- The time passes to `now`, and the timer of the agent ticks if it is due. -/
def passTo (s : Service) (now : Nat) : Service :=
  { s with now, agent := s.agent.tickAt now }

/-! ### Waiting -/

/-- The outcome of the initialization, once it is decided. -/
def initializationOutcome (s : Service) : Option (Except IdentityError Unit) :=
  match s.initialization with
  | .pending => none
  | .succeeded => some (.ok ())
  | .failed e => some (.error (.initializationFailed e))

/-- Whether there is no loop of the agent to wait for. -/
def hasNoLoop (s : Service) : Bool :=
  s.agent.status = .waitingForStart || s.agent.isFinished

/-- The outcome for one who waits for the destruction of a party, once it is known. -/
def destroyOutcome (s : Service) (id : PartyId) : Option (Except IdentityError Unit) :=
  if s.graph.isGone id then some (.ok ())
  else if s.dropped || s.hasNoLoop then some (.error .agentStopped)
  else none

/-- The outcome of an addition, once it is known. -/
def addOutcome (s : Service) (a : Added) : Option (Except IdentityError Unit) :=
  match a.ticket with
  | none => some (.ok ())
  | some ticket => s.outcome? ticket

/-! ### Histories -/

/-- One thing that happens to a service. -/
inductive Move where
  | request (r : Request)
  | register (typeName : String) (allowedByDefault : Bool) (meanwhile : List Request)
    (behaviour : Binding → HookCall → DriverScript)
  | attach (p : PartyRef) (type value : String)
  | label (name : String) (id : PartyId)
  | deliver
  | passTo (now : Nat)
  | drop

/-- The service after a move. -/
def move (s : Service) : Move → Service
  | .request r => (s.request r).2
  | .register typeName allowedByDefault meanwhile behaviour =>
    (s.register typeName allowedByDefault meanwhile behaviour).2
  | .attach p type value => (s.attach p type value).2
  | .label name id => s.label name id
  | .deliver => s.deliver.getD s
  | .passTo now => s.passTo now
  | .drop => s.drop

/-- The service after moves, in order. -/
def play (s : Service) (moves : List Move) : Service := moves.foldl move s

end Service

end PartyGraph
