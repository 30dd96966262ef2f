import PartyGraph.Scenario.DriverPlan
import PartyGraph.Service.Handling

/-!
# Scenarios of a service

A scenario drives one service by a list of steps. A step asks something of the service and then, as
a rule, lets its agent work until there is nothing to do. A step whose outcome is not known by then
is answered by a later one.

Parties are referred to by a label, under which an earlier step has left them, or by name.

## Main definitions

* `ServiceStep`, `ServiceReply`: the steps and their replies.
* `Waiting`: what a step waits for, with `Waiting.poll`.
* `ServiceScenario.play`: all steps in order.
-/

namespace PartyGraph

/-- The ways to ask for parties to be added. -/
inductive AddKind where
  | remote
  | remotes
  | tenant
  | parties
deriving DecidableEq, Repr

/-- What sort of parties a way calls for. -/
def AddKind.shape : AddKind → AddShape
  | remote => .oneRemote
  | remotes => .remotesOnly
  | tenant => .oneTenant
  | parties => .any

/-- Whether parties can be added in this way to owners other than the root. -/
def AddKind.takesOwner : AddKind → Bool
  | remote => true
  | remotes => true
  | _ => false

/-- What a receiver is told of. -/
inductive Topic where
  | all
  | root
  | heartbeat
  | party (ref : String)

/-- A step of a scenario. -/
inductive ServiceStep where
  | register (plan : DriverPlan)
  | expect (featureName : String)
  | drivers
  | start
  | startAndInitialize
  | initialization
  | stop
  | status
  | add (kind : AddKind) (owner : Option String) (increment : PartySection)
    (label : Option String)
  | destroy (ref : String)
  | setDestroyed (ref : String)
  | save (ref label : String)
  | same (ref other : String)
  | party (ref : String)
  | tree
  | service
  | allowed (featureName : String) (ref : Option String)
  | subscribe (topic : Topic) (label : String)
  | events (label : String)
  | settle
  | advance (ms : Nat)
  | drop
  | unknown

/-- Whether a step asks something of the service itself, which has to be there. -/
def ServiceStep.needsService : ServiceStep → Bool
  | destroy _ => false
  | setDestroyed _ => false
  | save _ _ => false
  | same _ _ => false
  | party _ => false
  | events _ => false
  | settle => false
  | advance _ => false
  | _ => true

/-- One thing that a receiver learns. -/
inductive NewsItem where
  | appeared (name : String)
  | disappeared (name : String)
  | beat (count : Nat)
  | missed (count : Nat)
  | closed

/-- The reply to a step. -/
inductive ServiceReply where
  | ok
  | pending
  | truth (b : Bool)
  | status (s : AgentStatus)
  | refused (e : IdentityError)
  | registered (b : Binding) (before : List String)
  | drivers (r : Registry)
  | added (kind : AddKind) (a : Added) (g : Graph)
  | party (s : Service) (id : PartyId)
  | tree (g : Graph)
  | service (s : Service)
  | news (items : List NewsItem)
  | noSuchParty
  | noSuchReceiver
  | noService
  | unknown

/-- What a step waits for. -/
inductive Waiting where
  | initialization
  | stop
  | destruction (id : PartyId)
  | addition (kind : AddKind) (a : Added) (label : Option String)

/-- The parties of a list with labels that number them from zero. -/
def numberedLabels (label : String) (ids : List PartyId) : List (String × PartyId) :=
  ids.zipIdx.map fun (id, i) => (label ++ "." ++ toString i, id)

/-- The labels under which an addition leaves a party: its own, and for a tenant domain those of
its remotes. -/
def Graph.labelsOf (g : Graph) (label : String) (id : PartyId) : List (String × PartyId) :=
  (label, id) :: if g.isTenant id then numberedLabels label (g.remotesOf (.owned id)) else []

/-- The labels under which the parties of an addition are left. -/
def Added.labels (a : Added) (kind : AddKind) (g : Graph) (label : String) :
    List (String × PartyId) :=
  let own : List (String × PartyId) :=
    match kind with
    | .remote => a.remotes.map (label, ·)
    | .tenant => a.tenants.map (label, ·)
    | .remotes => numberedLabels label a.remotes
    | .parties => numberedLabels label a.parties
  own.flatMap fun l => g.labelsOf l.1 l.2

/-- Leaves parties under labels. -/
def Service.leave (s : Service) (labels : List (String × PartyId)) : Service :=
  labels.foldl (fun s l => s.label l.1 l.2) s

namespace Waiting

/-- The reply of an outcome. -/
def ofOutcome (onOk : ServiceReply) : Except IdentityError Unit → ServiceReply
  | .ok () => onOk
  | .error e => .refused e

/-- The reply, once it is known, and the service with the parties left that were waited for. -/
def poll (s : Service) : Waiting → Option (ServiceReply × Service)
  | initialization => s.initializationOutcome.map fun o => (ofOutcome .ok o, s)
  | stop => if s.hasNoLoop then some (.ok, s) else none
  | destruction id => (s.destroyOutcome id).map fun o => (ofOutcome .ok o, s)
  | addition kind a label =>
    (s.addOutcome a).map fun
      | .error e => (.refused e, s)
      | .ok () =>
        (.added kind a s.graph, s.leave ((label.map (a.labels kind s.graph)).getD []))

end Waiting

/-- A service under way. -/
structure ServiceScenario where
  service : Service
  receivers : List (String × Receiver)
  /-- The steps that wait, the earliest first. -/
  waiting : List (Nat × Waiting)
  /-- The steps that wait no more, the earliest first, with replies that are yet to be told. -/
  answered : List (Nat × ServiceReply)
  /-- The parties of the graph when they were told last. -/
  live : Option (Option (List String))

/-- What is told after a step: the reply, the replies to earlier steps, the lines noted by drivers,
and the names of the parties of the graph if they changed, where there are none when the service is
gone. -/
structure ServiceReport where
  reply : ServiceReply
  done : List (Nat × ServiceReply)
  log : List String
  live : Option (Option (List String))

namespace ServiceScenario

/-- The party that a reference means. Names are looked up while there is a service. -/
def find? (s : ServiceScenario) (ref : String) : Option PartyId :=
  let g := s.service.glimpse
  if s.service.dropped then List.lookup ref g.labels else g.find? ref

/-- The reply of a wait that may be over at once, and else goes on. -/
def await (s : ServiceScenario) (i : Nat) (w : Waiting) : ServiceReply × ServiceScenario :=
  match w.poll s.service with
  | some (reply, service) => (reply, { s with service })
  | none => (.pending, { s with waiting := s.waiting ++ [(i, w)] })

/-- Waits when a request was accepted. -/
def awaitIfOk {α : Type} (s : ServiceScenario) (i : Nat) (answer : Except IdentityError α)
    (w : α → Waiting) : ServiceReply × ServiceScenario :=
  match answer with
  | .ok a => s.await i (w a)
  | .error e => (.refused e, s)

/-- The owner that a reference means, if it can be one. -/
def owner? (s : ServiceScenario) : Option String → Option PartyRef
  | none => some .root
  | some ref =>
    match s.find? ref with
    | none => none
    | some id => if s.service.graph.isTenant id then some (.owned id) else none

/-- The channel of a topic. -/
def channel? (s : ServiceScenario) : Topic → Option Channel
  | .all => some .all
  | .root => some (.remotesOf .root)
  | .heartbeat => some .heartbeat
  | .party ref => (s.owner? (some ref)).map .remotesOf

/-- A signal as it is told. -/
def newsItem (g : Graph) : Signal → NewsItem
  | .party (.appeared id) => .appeared (g.nameText (.owned id))
  | .party (.disappeared id) => .disappeared (g.nameText (.owned id))
  | .beat count => .beat count

/-- What a receiver learns, with the end of its channel. -/
def newsItems (s : Service) (r : Receiver) (news : Receiver.News) : List NewsItem :=
  (if news.missed = 0 then [] else [.missed news.missed])
    ++ news.signals.map (newsItem s.graph)
    ++ if s.dropped && r.channel.endsWithRoot then [.closed] else []

/-- Does something with the party that a reference means. -/
def withParty (s : ServiceScenario) (ref : String)
    (act : PartyId → ServiceReply × ServiceScenario) : ServiceReply × ServiceScenario :=
  match s.find? ref with
  | none => (.noSuchParty, s)
  | some id => act id

/-- The replies of the waits that are over, and the waits that go on. -/
def pollAll (s : Service) : List (Nat × Waiting) →
    List (Nat × ServiceReply) × List (Nat × Waiting) × Service
  | [] => ([], [], s)
  | (i, w) :: rest =>
    match w.poll s with
    | some (reply, s) =>
      let (done, waiting, s) := pollAll s rest
      ((i, reply) :: done, waiting, s)
    | none =>
      let (done, waiting, s) := pollAll s rest
      (done, (i, w) :: waiting, s)

/-- The agent works until it has nothing to do, and those who wait are answered. -/
def settle (s : ServiceScenario) : ServiceScenario :=
  let (done, waiting, service) := pollAll s.service.settle s.waiting
  { s with service, waiting, answered := s.answered.merge done fun a b => a.1 ≤ b.1 }

/-- Milliseconds pass one by one, and the agent works after each. -/
def passTime : Nat → ServiceScenario → ServiceScenario
  | 0, s => s
  | n + 1, s => passTime n { s with service := s.service.passTo (s.service.now + 1000) }.settle

/-- What step number `i` asks. -/
def act (s : ServiceScenario) (i : Nat) : ServiceStep → ServiceReply × ServiceScenario
  | .register plan =>
    let before := s.service.registry.featureNames
    match s.service.register plan.typeName plan.allowedByDefault [] plan.behaviour with
    | (.ok b, service) => (.registered b before, { s with service })
    | (.error e, service) => (.refused e, { s with service })
  | .expect featureName =>
    (.ok, { s with service := (s.service.request (.expect featureName)).2 })
  | .drivers => (.drivers s.service.registry, s)
  | .start =>
    match s.service.start with
    | (.ok (), service) => (.ok, { s with service })
    | (.error e, service) => (.refused e, { s with service })
  | .startAndInitialize =>
    let (answer, service) := s.service.start
    { s with service }.awaitIfOk i answer fun _ => .initialization
  | .initialization => s.await i .initialization
  | .stop => { s with service := s.service.stop.2 }.await i .stop
  | .status => (.status s.service.agent.status, s)
  | .add kind owner increment label =>
    match s.owner? owner with
    | none => (.noSuchParty, s)
    | some owner =>
      let owner := if kind.takesOwner then owner else .root
      let (answer, service) := s.service.add owner kind.shape increment
      { s with service }.awaitIfOk i answer fun a => .addition kind a label
  | .destroy ref =>
    s.withParty ref fun id =>
      let (answer, service) := s.service.destroy id
      { s with service }.awaitIfOk i answer fun _ => .destruction id
  | .setDestroyed ref =>
    s.withParty ref fun id =>
      match s.service.destroy id with
      | (.ok b, service) => (.truth b, { s with service })
      | (.error e, service) => (.refused e, { s with service })
  | .save ref label =>
    s.withParty ref fun id =>
      (.ok, { s with service := s.service.label label id })
  | .same ref other =>
    s.withParty ref fun id => s.withParty other fun id' => (.truth (id = id'), s)
  | .party ref => s.withParty ref fun id => (.party s.service id, s)
  | .tree => (.tree s.service.graph, s)
  | .service => (.service s.service, s)
  | .allowed featureName ref =>
    match s.service.registry.find? featureName with
    | none => (.noSuchParty, s)
    | some d =>
      match ref with
      | none => (.truth (d.binding.isAllowed s.service.graph .root), s)
      | some ref =>
        s.withParty ref fun id => (.truth (d.binding.isAllowed s.service.graph (.owned id)), s)
  | .subscribe topic label =>
    match s.channel? topic with
    | none => (.noSuchParty, s)
    | some channel =>
      let r : Receiver := ⟨channel, (s.service.signals channel).length⟩
      (.ok, { s with receivers := (label, r) :: s.receivers })
  | .events label =>
    match List.lookup label s.receivers with
    | none => (.noSuchReceiver, s)
    | some r =>
      let (news, r') := r.drain (s.service.signals r.channel)
      (.news (newsItems s.service r news), { s with receivers := (label, r') :: s.receivers })
  | .settle => (.ok, s)
  | .advance ms => (.ok, passTime ms s.settle)
  | .drop => (.ok, { s with service := s.service.drop })
  | .unknown => (.unknown, s)

/-- Step number `i`; unless `settling`, the agent does not work after it. -/
def step (s : ServiceScenario) (i : Nat) (settling : Bool) (st : ServiceStep) :
    ServiceReport × ServiceScenario :=
  let (reply, s) :=
    if s.service.dropped && st.needsService then (.noService, s) else s.act i st
  let s := if settling then s.settle else s
  let reply := (List.lookup i s.answered).getD reply
  let live : Option (List String) :=
    if s.service.dropped then none
    else some (s.service.graph.allParties.map fun id => s.service.graph.nameText (.owned id))
  let report : ServiceReport :=
    ⟨reply, s.answered.filter fun d => d.1 ≠ i, s.service.notes.reverse,
      if s.live = some live then none else some live⟩
  (report, { s with service := { s.service with notes := [] }, answered := [], live := some live })

/-- The reports of the steps from number `i` on. -/
def reports (s : ServiceScenario) (i : Nat) : List (ServiceStep × Bool) → List ServiceReport
  | [] => []
  | (st, settling) :: rest =>
    let (report, s) := s.step i settling st
    report :: reports s (i + 1) rest

/-- Plays a scenario with a service of a configuration. Each step comes with whether the agent works
after it. -/
def play (c : IdentityConfiguration) (place : DataPlace) (steps : List (ServiceStep × Bool)) :
    Except IdentityError (List ServiceReport) :=
  match Service.new c place with
  | .error e => .error e
  | .ok service => .ok (reports ⟨service, [], [], [], none⟩ 0 steps)

end ServiceScenario

end PartyGraph
