import PartyGraph.Service.Basic

/-!
# Requests to a service

What anyone may ask of a service is answered at once, while the agent does the work later: an
addition is checked and its parties are made, and then the agent is asked to put them into the
graph; a destruction is marked as requested, and then the agent is asked to carry it out.

Whoever asks for an addition looks at the service first and gives the agent its job afterwards, and
others may do anything in between: the service may have been stopped by then, and even the loop of
its agent may have left. So the two are requests of their own.

## Main definitions

* `AddShape.check`: whether an addition has the parties that were announced.
* `Service.vet`, `Service.enlist`: the two steps of an addition.
* `Service.add`, `Service.destroy`, `Service.start`, `Service.stop`: the other requests.
* `Service.request`: any of them.
-/

namespace PartyGraph

namespace AddShape

/-- What a shape calls for, in words. -/
def expectation : AddShape → String
  | any => "any parties"
  | oneRemote => "exactly one remote party"
  | oneTenant => "exactly one tenant domain"
  | remotesOnly => "remote parties only"

/-- Whether numbers of remote parties and tenant domains are those that a shape calls for. -/
def admits : AddShape → Nat → Nat → Bool
  | any, _, _ => true
  | oneRemote, remotes, tenants => remotes = 1 && tenants = 0
  | oneTenant, remotes, tenants => remotes = 0 && tenants = 1
  | remotesOnly, _, tenants => tenants = 0

/-- Whether parties may be added to an owner in a shape. A tenant domain owns no tenant domain. -/
def check (shape : AddShape) (owner : PartyRef) (ownerName : String) (parties : Parties) :
    Except IdentityError Unit :=
  let remotes := parties.remotes.length
  let tenants := parties.tenants.length
  if 0 < tenants ∧ owner ≠ .root then
    .error (.invalidIncrement ("tenant domain '" ++ ownerName ++ "' cannot own tenant domains"))
  else if shape.admits remotes tenants then .ok ()
  else .error (.invalidIncrement ("expected " ++ shape.expectation ++ ", got " ++ toString remotes
    ++ " remote(s) and " ++ toString tenants ++ " tenant domain(s)"))

end AddShape

namespace Service

/-- Whether the destruction of an owner was requested. -/
def ownerGoes (s : Service) : PartyRef → Bool
  | .root => false
  | .owned id => s.graph.isDestroyed id

/-- The parties of an addition, if it can be accepted now. -/
def checkAddition (s : Service) (owner : PartyRef) (shape : AddShape) (increment : PartySection) :
    Except IdentityError Parties :=
  match s.graph.configuration? owner with
  | none => .error .agentStopped
  | some c =>
    if s.dropped || !s.graph.isLocal owner then .error .agentStopped
    else match resolveIncrement c increment with
      | .error e => .error (.config e)
      | .ok parties =>
        match shape.check owner c.fullName.text parties with
        | .error e => .error e
        | .ok () =>
          if parties.isEmpty then .ok parties
          else if s.ownerGoes owner then .error (.ownerDestroyed c.fullName.text)
          else match parties.fullNames.find? fun n => s.graph.keys.contains n.key with
            | some name => .error (.nameCollision name.text)
            | none =>
              if s.agent.status = .stopped then .error .notRunning else .ok parties

/-- Checks an addition. One that is refused or has no parties is answered at once, and any other is
left to be enlisted. -/
def vet (s : Service) (owner : PartyRef) (shape : AddShape) (increment : PartySection) :
    Except IdentityError (Option Nat) × Service :=
  match s.checkAddition owner shape increment, s.graph.configuration? owner with
  | .error e, _ => (.error e, s.record (.askedToAdd owner increment [] (.error e)))
  | .ok _, none =>
    (.error .agentStopped, s.record (.askedToAdd owner increment [] (.error .agentStopped)))
  | .ok parties, some configuration =>
    if parties.isEmpty then
      (.ok none, s.record (.askedToAdd owner increment [] (.ok ⟨[], [], none⟩)))
    else
      (.ok (some s.admissions.length),
        { s with admissions := s.admissions ++ [⟨owner, increment, configuration, parties⟩] })

/-- Makes the parties of an addition and asks the agent to put them into the graph. -/
def postBatch (s : Service) (a : Admission) : Except IdentityError Added × Service :=
  let draft := Draft.make s.graph.root a.owner a.configuration true s.graph.parties.length a.parties
  let s := s.change (.make draft.parties)
  match s.agent.post (.add ⟨a.owner, draft.remotes, draft.tenants, s.tickets⟩) with
  | .error _ => (.error .agentStopped, s)
  | .ok agent =>
    (.ok ⟨draft.remotes, draft.tenants, some s.tickets⟩,
      { s with agent, tickets := s.tickets + 1 })

/-- Enlists the addition at a place among those that have been checked, and keeps the answer in the
journal with the numbers of the parties that were made. Nothing is checked again, whatever has
happened meanwhile. -/
def enlist (s : Service) (place : Nat) : Except IdentityError Added × Service :=
  match s.admissions[place]? with
  | none => (.error .agentStopped, s)
  | some a =>
    let first := s.graph.parties.length
    let (answer, s) := { s with admissions := s.admissions.eraseIdx place }.postBatch a
    let made := List.range' first (s.graph.parties.length - first)
    (answer, s.record (.askedToAdd a.owner a.increment made answer))

/-- Asks for the parties of a section to be added to an owner: they are checked and enlisted with
nothing in between. -/
def add (s : Service) (owner : PartyRef) (shape : AddShape) (increment : PartySection) :
    Except IdentityError Added × Service :=
  match s.vet owner shape increment with
  | (.error e, s) => (.error e, s)
  | (.ok none, s) => (.ok ⟨[], [], none⟩, s)
  | (.ok (some place), s) => s.enlist place

/-- Asks the agent to destroy a party, if there still is an agent that takes messages. -/
def postDestroy (s : Service) (id : PartyId) : Except IdentityError Bool × Service :=
  if s.dropped then (.error .agentStopped, s)
  else match s.agent.post (.destroy id) with
    | .error _ => (.error .agentStopped, s)
    | .ok agent => (.ok true, { s with agent })

/-- The destruction of a party requested, with the answer whether it was not before. -/
def doom (s : Service) (id : PartyId) : Except IdentityError Bool × Service :=
  match s.graph.party? id with
  | none => (.error .agentStopped, s)
  | some p =>
    if !p.dynamic then (.error (.notDynamic p.name.text), s)
    else if p.isDestroyed then (.ok false, s)
    else (s.change (.doom id)).postDestroy id

/-- Asks for the destruction of a party, and keeps the answer in the journal. -/
def destroy (s : Service) (id : PartyId) : Except IdentityError Bool × Service :=
  let (answer, s) := s.doom id
  (answer, s.record (.askedToDestroy id answer))

/-- The service with its list of drivers closed. When an expected driver is missing, that decides
the initialization. -/
def closeRegistry (s : Service) : Service :=
  let s := { s with registry := s.registry.freeze }
  if s.registry.isComplete then s
  else
    let i := Initialization.failed (.failed "expected feature drivers are missing")
    { s with initialization := i }.record (.initialized i)

/-- Asks the service to start. The first time the list of drivers is closed, and the start is
refused when an expected driver is missing. -/
def start (s : Service) : Except IdentityError Unit × Service :=
  if s.dropped then (.error .agentStopped, s)
  else
    let s := if s.agent.startAttempted then s else s.closeRegistry
    let s := { s with agent := s.agent.tryStart s.registry.isComplete s.now }
    match s.agent.status with
    | .running => (.ok (), s)
    | .waitingForStart => (.error .startRefused, s)
    | .stopped => (.error .agentStopped, s)

/-- Asks the service to stop. -/
def stop (s : Service) : Bool × Service :=
  if s.dropped then (false, s)
  else
    let (answer, agent) := s.agent.sendStop
    (answer, { s with agent })

/-- Takes a request. -/
def request (s : Service) : (r : Request) → r.Answer × Service
  | .start => s.start
  | .stop => s.stop
  | .expect featureName => ((), { s with registry := s.registry.expect featureName })
  | .destroy id => s.destroy id
  | .vet owner shape increment => s.vet owner shape increment
  | .enlist place => s.enlist place
  | .add owner shape increment => s.add owner shape increment

/-- Attaches a feature to a party. -/
def attach (s : Service) (p : PartyRef) (type value : String) :
    Except IdentityError Unit × Service :=
  match s.graph.features? p with
  | none => (.error .agentStopped, s)
  | some features =>
    match features.add type value with
    | .error e => (.error e, s)
    | .ok _ => (.ok (), s.change (.attach p type value))

/-- Registers a driver of a type. While it is made, `meanwhile` is asked. -/
def register (s : Service) (typeName : String) (allowedByDefault : Bool)
    (meanwhile : List Request) (behaviour : Binding → HookCall → DriverScript) :
    Except IdentityError Binding × Service :=
  match s.registry.bind typeName allowedByDefault with
  | .error e => (.error e, s)
  | .ok binding =>
    let s := meanwhile.foldl (fun s r => (s.request r).2) s
    match s.registry.install ⟨binding, behaviour binding⟩ with
    | .error e => (.error e, s)
    | .ok registry => (.ok binding, { s with registry })

/-- Leaves a party under a label. -/
def label (s : Service) (name : String) (id : PartyId) : Service :=
  { s with labels := (name, id) :: s.labels }

end Service

end PartyGraph
