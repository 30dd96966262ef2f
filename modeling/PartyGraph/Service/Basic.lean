import PartyGraph.Driver.Registry
import PartyGraph.Graph.Change
import PartyGraph.Graph.Channel
import PartyGraph.Graph.Draft
import PartyGraph.Identity.Configuration
import PartyGraph.Store.Folder

/-!
# Identity services

A service holds the graph of an identity, the drivers of its features and the agent that changes
the graph. What happens is kept in a journal. Each change of the graph has an entry of its own, and
so has each signal told on a channel, so the journal tells every state that the graph went through
and what had been told by then.

## Main definitions

* `Admission`, `IdentityJob`: additions on their way to the agent, and what it is asked to do.
* `Entry`: the entries of the journal.
* `Service`: the service.
* `Service.change`, `Service.tell`: changes and signals, with their entries.
* `Service.signals`: all that was told on a channel.
-/

namespace PartyGraph

/-- Parties that the agent is asked to add. -/
structure Batch where
  owner : PartyRef
  remotes : List PartyId
  tenants : List PartyId
  /-- The number under which the outcome is answered. -/
  ticket : Nat
deriving DecidableEq, Repr

/-- The parties of a batch that the owner itself will own: remote parties, then tenant domains. -/
def Batch.parties (b : Batch) : List PartyId := b.remotes ++ b.tenants

/-- An addition that has been checked, whose parties have not been made yet. -/
structure Admission where
  owner : PartyRef
  increment : PartySection
  /-- The configuration of the owner. -/
  configuration : PartyConfiguration
  parties : Parties

/-- What the agent of an identity is asked to do. -/
inductive IdentityJob where
  | add (b : Batch)
  | destroy (id : PartyId)
deriving DecidableEq, Repr

/-- Whether the drivers were set up when the identity started. -/
inductive Initialization where
  | pending
  | succeeded
  | failed (e : ActionError)

/-- An entry of the journal. -/
inductive Entry where
  /-- The graph changed. -/
  | changed (c : GraphChange)
  /-- A signal was told on a channel. -/
  | told (channel : Channel) (signal : Signal)
  /-- The agent began to handle a message. -/
  | handling (c : Agent.Call IdentityJob)
  /-- A pass over the drivers began. -/
  | passBegun (hook : Hook) (targets : List PartyId)
  /-- A driver was called. -/
  | called (position : Nat) (hook : Hook) (target : Option PartyId)
  /-- The initialization was decided. -/
  | initialized (i : Initialization)
  /-- The outcome of an addition was answered. -/
  | answered (ticket : Nat) (outcome : Except IdentityError Unit)
  /-- Someone asked for the destruction of a party. -/
  | askedToDestroy (id : PartyId) (answer : Except IdentityError Bool)
  /-- Someone asked for the parties of a section to be added; those `made` for it have these
  numbers. -/
  | askedToAdd (owner : PartyRef) (increment : PartySection) (made : List PartyId)
    (answer : Except IdentityError Added)

/-- An identity service. -/
structure Service where
  storeRoot : String
  graph : Graph
  registry : Registry
  agent : Agent IdentityJob
  initialization : Initialization
  /-- Whether the last owner of the service has let go of it. -/
  dropped : Bool
  /-- Microseconds since the beginning. -/
  now : Nat
  /-- Additions that have been checked and are not enlisted yet, in the order of the checks. -/
  admissions : List Admission
  /-- Number of batches given to the agent. -/
  tickets : Nat
  /-- Parties left under a label. -/
  labels : List (String × PartyId)
  /-- The latest entry first. -/
  journal : List Entry
  /-- The lines noted by drivers, the latest first. -/
  notes : List String

namespace Service

/-- The service of a configuration. -/
def new (c : IdentityConfiguration) (place : DataPlace) : Except IdentityError Service :=
  match c.resolve, c.period, c.storeRoot place with
  | .error e, _, _ => .error (.config e)
  | _, .error e, _ => .error (.config e)
  | _, _, .error e => .error (.config e)
  | .ok resolved, .ok period, .ok storeRoot =>
    match Agent.new ("identity " ++ resolved.root.fullName.text) (period.map (· * 1000)) with
    | .error e => .error (.agent e)
    | .ok agent => .ok {
        storeRoot, agent
        graph := Graph.ofResolved resolved
        registry := Registry.empty resolved.root
        initialization := .pending
        dropped := false
        now := 0
        admissions := []
        tickets := 0
        labels := []
        journal := []
        notes := [] }

/-- Makes an entry in the journal. -/
def record (s : Service) (e : Entry) : Service := { s with journal := e :: s.journal }

/-- Changes the graph. -/
def change (s : Service) (c : GraphChange) : Service :=
  { s with graph := s.graph.apply c }.record (.changed c)

/-- Tells a signal on a channel. -/
def tell (s : Service) (channel : Channel) (signal : Signal) : Service :=
  s.record (.told channel signal)

/-- Tells a change on the channel of the owner and then on that of all parties. -/
def tellOfRemote (s : Service) (owner : PartyRef) (e : PartyEvent) : Service :=
  (s.tell (.remotesOf owner) (.party e)).tell .all (.party e)

/-- Answers the outcome of an addition. -/
def answer (s : Service) (ticket : Nat) (outcome : Except IdentityError Unit) : Service :=
  s.record (.answered ticket outcome)

/-- All that was told on a channel, in order. -/
def signals (s : Service) (channel : Channel) : List Signal :=
  s.journal.reverse.filterMap fun
    | .told c signal => if c = channel then some signal else none
    | _ => none

/-- The outcome of an addition, if it was answered. -/
def outcome? (s : Service) (ticket : Nat) : Option (Except IdentityError Unit) :=
  s.journal.findSome? fun
    | .answered t outcome => if t = ticket then some outcome else none
    | _ => none

/-- Number of calls of a hook of the driver at a position. -/
def callsOf (s : Service) (position : Nat) (hook : Hook) : Nat :=
  s.journal.countP fun
    | .called p h _ => p = position && h = hook
    | _ => false

/-- What can be seen of the service. -/
def glimpse (s : Service) : Glimpse :=
  ⟨s.graph, s.agent.status, s.registry.featureNames, s.labels⟩

/-! ### Texts -/

/-- Form of the service. -/
def form (s : Service) : String :=
  Text.record "IdentityService" [("full_name", Text.quoted s.graph.root.fullName.text),
    ("status", s.agent.status.text), ("remotes", toString s.graph.remotes.length),
    ("tenant_domains", toString s.graph.tenants.length)]

/-- The folder of a party. -/
def folder (s : Service) (name : FullName) : Folder := Folder.shared s.storeRoot name

end Service

/-- Form of a party. -/
def OwnedParty.form (p : OwnedParty) : String :=
  let name := ("full_name", Text.quoted p.name.text)
  let states := [("is_dynamic", Text.truth p.dynamic), ("is_destroyed", Text.truth p.isDestroyed)]
  if p.isTenant then
    Text.record "TenantDomainParty" ([name, ("remotes", toString p.remotes.length)] ++ states)
  else
    Text.record "RemoteParty"
      ([name, ("address", Text.optional (p.configuration.address.map Text.quoted))] ++ states)

end PartyGraph
