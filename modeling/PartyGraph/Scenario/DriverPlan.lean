import PartyGraph.Driver.Basic
import PartyGraph.Scenario.Job

/-!
# Drivers written as data

A plan tells what a driver does in each call by rules. The driver notes every call, and then goes
through the effects of the first rule that fits.

## Main definitions

* `HookEffect`, `HookRule`, `DriverPlan`: the data.
* `DriverPlan.behaviour`: the driver that they describe.
-/

namespace PartyGraph

/-- A single thing that a driver does in a call. -/
inductive HookEffect where
  /-- What a job can do too, on the trampoline and with the memory of the pass. -/
  | job (e : JobEffect)
  /-- Asks for the destruction of the party that the call is about. -/
  | destroyTarget
  /-- Asks for the destruction of a party, by label or name. -/
  | destroy (ref : String)
  /-- Notes the parties that the call is about. -/
  | scope
  /-- Notes all parties of the graph. -/
  | live
  /-- Notes the status of the agent. -/
  | status
  /-- Notes the features that there are drivers of. -/
  | drivers
  /-- Attaches a tag to the remote parties that the call is about and may have the feature. -/
  | tag
  /-- Attaches a tag to the parties that own others, in the same way. -/
  | tagLocals
  /-- Notes the tags of the remote parties that the call is about, which have to be there. -/
  | needTag
  /-- Notes which parties may have the feature. -/
  | allowed
  /-- Notes whether the party that the call is about is in the graph. -/
  | visible
  /-- Notes that the effect is not known. -/
  | unknown

/-- How a call ends. -/
inductive HookEnding where
  | succeeded
  | declined
  | failed (text : String)
  | panicked (p : Payload)

/-- What a driver does in calls for a party, or in a call of some number. -/
structure HookRule where
  party : Option String
  call : Option Nat
  effects : List HookEffect
  ending : HookEnding

/-- A driver: the name of its type, and its rules. -/
structure DriverPlan where
  typeName : String
  allowedByDefault : Bool
  rules : Hook → List HookRule
  /-- The name of the type of its tags. -/
  tagType : String

/-- The party with a label or else, in the graph, with a name. -/
def Glimpse.find? (g : Glimpse) (ref : String) : Option PartyId :=
  match List.lookup ref g.labels with
  | some id => some id
  | none =>
    match FullName.parse ref with
    | .ok name => g.graph.find? name
    | .error _ => none

namespace DriverPlan

/-- Notes a line and goes on. -/
def noting (line : String) (next : Unit → DriverScript) : DriverScript :=
  .ask (.job (.note line)) next

/-- Notes lines and goes on. -/
def notingAll : List String → (Unit → DriverScript) → DriverScript
  | [], next => next ()
  | line :: rest, next => noting line fun _ => notingAll rest next

/-- The job of a pass that a job written as data describes. -/
def deed (j : ScriptedJob) : DriverDeed := j.deed.map .job fun _ a => a

/-- A job effect, and what follows. A job that cannot be done without and is refused makes the call
fail. -/
def jobEffect (feature : String) (next : Unit → DriverScript) : JobEffect → DriverScript
  | .register j =>
    .register j.kind (deed j) fun
      | none => next ()
      | some e => noting ("refused " ++ j.name ++ ": " ++ e.message) next
  | .require j =>
    .register j.kind (deed j) fun
      | none => next ()
      | some e => .finish (.failed (.ofDriver (.failed feature e.message)))
  | .memory request =>
    .ask (.job .fetch) fun m =>
      let (a, m') := m.perform request
      .ask (.job (.store m')) fun _ => noting ("mem " ++ a.note) next
  | .note line => noting line next
  | .phase => .look fun v => noting ("phase " ++ v.phase.text) next
  | .form => .look fun v => noting v.form next
  | .repeatJob _ => noting "?" next

/-- Asks for the destruction of a party, notes the answer, and goes on. -/
def destroying (g : Glimpse) (id : Option PartyId) (next : Unit → DriverScript) : DriverScript :=
  match id with
  | none => noting "set_destroyed: no such party" next
  | some id =>
    .ask (.request (.destroy id)) fun answer =>
      let text := match answer with
        | .ok b => Text.truth b
        | .error e => e.message
      noting ("set_destroyed " ++ g.graph.nameText (.owned id) ++ ": " ++ text) next

/-- Attaches a tag to parties, up to the first that has one, and goes on. -/
def tagging (type value : String) (next : Unit → DriverScript) : List PartyRef → DriverScript
  | [] => next ()
  | p :: rest =>
    .ask (.attach p type value) fun
      | .ok () => tagging type value next rest
      | .error e => .finish (.failed (.ofDriver (.party e)))

/-- Notes the tags of parties, up to the first that has none, and goes on. -/
def readingTags (g : Glimpse) (type : String) (next : Unit → DriverScript) :
    List PartyRef → DriverScript
  | [] => next ()
  | p :: rest =>
    match ((g.graph.features? p).getD (.empty "")).getRequired type with
    | .ok value =>
      noting ("tag " ++ g.graph.nameText p ++ "=" ++ value) fun _ => readingTags g type next rest
    | .error e => .finish (.failed (.ofDriver (.party e)))

/-- Names of parties in brackets. -/
def named (g : Glimpse) (ps : List PartyRef) : String :=
  "[" ++ ",".intercalate (ps.map g.graph.nameText) ++ "]"

/-- Whether a party is in the graph, in the list of its owner, and destroyed, in words. -/
def visibility (g : Glimpse) (id : PartyId) : String :=
  "visible " ++ g.graph.nameText (.owned id)
    ++ ": listed=" ++ Text.truth (g.graph.allParties.contains id)
    ++ " owned=" ++ Text.truth ((g.graph.siblings id).contains id)
    ++ " destroyed=" ++ Text.truth (g.graph.isDestroyed id)

/-- An effect, and what follows. -/
def effect (plan : DriverPlan) (b : Binding) (target : Option PartyId)
    (next : Unit → DriverScript) (e : HookEffect) : DriverScript :=
  .ask .look fun g =>
    let remotes : List PartyRef := (g.scopeRemotes target).map .owned
    let locals := g.scopeLocals target
    match e with
    | .job j => jobEffect b.featureName next j
    | .destroyTarget => destroying g target next
    | .destroy ref => destroying g (g.find? ref) next
    | .scope => noting ("scope " ++ named g remotes ++ " " ++ named g locals) next
    | .live => noting ("live " ++ named g (g.graph.allParties.map .owned)) next
    | .status => noting ("status " ++ g.status.text) next
    | .drivers => noting ("drivers [" ++ ",".intercalate g.featureNames ++ "]") next
    | .tag => tagging plan.tagType b.featureName next (remotes.filter (b.isAllowed g.graph))
    | .tagLocals => tagging plan.tagType b.featureName next (locals.filter (b.isAllowed g.graph))
    | .needTag => readingTags g plan.tagType next remotes
    | .allowed =>
      notingAll ((locals ++ remotes).map fun p =>
        "allowed " ++ g.graph.nameText p ++ "=" ++ Text.truth (b.isAllowed g.graph p)) next
    | .visible => notingAll ((target.map (visibility g)).toList) next
    | .unknown => noting "?" next

/-- How a call ends, for the driver of a feature. A driver that tears down has nothing to
decline. -/
def ending (feature : String) (hook : Hook) : HookEnding → Ending
  | .succeeded => .succeeded
  | .declined => if hook = .setup || hook = .setupDynamic then .declined else .succeeded
  | .failed text => .failed (.ofDriver (.failed feature text))
  | .panicked p => .panicked p

/-- Effects in order, and then the end. -/
def script (plan : DriverPlan) (b : Binding) (call : HookCall) (e : HookEnding) :
    List HookEffect → DriverScript
  | [] => .finish (ending b.featureName call.hook e)
  | effect :: rest => plan.effect b call.target (fun _ => script plan b call e rest) effect

/-- The driver that a plan describes. -/
def behaviour (plan : DriverPlan) (b : Binding) (call : HookCall) : DriverScript :=
  .ask .look fun g =>
    let party := match call.target with
      | none => "-"
      | some id => g.graph.nameText (.owned id)
    noting (call.hook.text ++ " " ++ b.featureName ++ " " ++ party) fun _ =>
      match (plan.rules call.hook).find? fun r =>
          r.party.all (· = party) && r.call.all (· = call.earlier) with
      | none => .finish .succeeded
      | some r => script plan b call r.ending r.effects

end DriverPlan

end PartyGraph
