import PartyGraph.Agent.Basic
import PartyGraph.Driver.Binding
import PartyGraph.Trampoline.Deed

/-!
# Feature drivers

A driver is called when an identity starts and stops, and when parties are added and destroyed
later. What it does in a call is a script: it may look at the graph, attach features, register jobs
on the trampoline that the call runs on, and ask the identity for anything that others may ask for.

## Main definitions

* `Hook`: the occasions on which drivers are called.
* `Request`: what anyone may ask of an identity.
* `DriverCommand`: what drivers and their jobs may ask.
* `Driver`: a binding with the scripts of all calls.
-/

namespace PartyGraph

/-- The occasions on which drivers are called. -/
inductive Hook where
  /-- The identity has started. -/
  | setup
  /-- A party is about to be added. -/
  | setupDynamic
  /-- A party is about to be taken out of the graph. -/
  | teardownDynamic
  /-- The identity stops. -/
  | teardown
deriving DecidableEq, Repr

/-- The name of a hook. -/
def Hook.text : Hook → String
  | setup => "setup"
  | setupDynamic => "setup_dynamic"
  | teardownDynamic => "teardown_dynamic"
  | teardown => "teardown"

/-- What sort of parties an addition may consist of. -/
inductive AddShape where
  | any
  | oneRemote
  | oneTenant
  | remotesOnly
deriving DecidableEq, Repr

/-- Parties that were asked to be added. -/
structure Added where
  remotes : List PartyId
  tenants : List PartyId
  /-- The number under which the outcome will be answered, none if there is nothing to wait for. -/
  ticket : Option Nat
deriving DecidableEq, Repr

/-- The parties asked for that the owner itself will own: remote parties, then tenant domains. -/
def Added.parties (a : Added) : List PartyId := a.remotes ++ a.tenants

/-- What anyone may ask of an identity. -/
inductive Request where
  /-- To start. -/
  | start
  /-- To stop. -/
  | stop
  /-- To start only when there is a driver of a feature. -/
  | expect (featureName : String)
  /-- To destroy a party. -/
  | destroy (id : PartyId)
  /-- To check an addition of the parties of a section to an owner. -/
  | vet (owner : PartyRef) (shape : AddShape) (increment : PartySection)
  /-- To make the parties of an addition that has been checked, and to have them added. -/
  | enlist (place : Nat)
  /-- Both, with nothing in between. -/
  | add (owner : PartyRef) (shape : AddShape) (increment : PartySection)

/-- What is answered at once. An addition that has been checked is answered its place among those
that are to be enlisted, and none if there is nothing to add. -/
abbrev Request.Answer : Request → Type
  | start => Except IdentityError Unit
  | stop => Bool
  | expect _ => Unit
  | destroy _ => Except IdentityError Bool
  | vet _ _ _ => Except IdentityError (Option Nat)
  | enlist _ => Except IdentityError Added
  | add _ _ _ => Except IdentityError Added

/-- What can be seen of an identity. -/
structure Glimpse where
  graph : Graph
  status : AgentStatus
  /-- The names of the features that there are drivers of. -/
  featureNames : List String
  /-- Parties that others have left under a label. -/
  labels : List (String × PartyId)

/-- What a driver or one of its jobs may ask. -/
inductive DriverCommand where
  | job (c : JobCommand)
  | look
  | attach (p : PartyRef) (type value : String)
  | request (r : Request)

/-- What it is answered. -/
abbrev DriverCommand.Answer : DriverCommand → Type
  | job c => c.Answer
  | look => Glimpse
  | attach _ _ _ => Except IdentityError Unit
  | request r => r.Answer

/-- A job that a driver registers. -/
abbrev DriverDeed := Deed DriverCommand DriverCommand.Answer

/-- What a driver does. -/
abbrev DriverScript := Script DriverDeed DriverCommand DriverCommand.Answer

/-- A call of a driver. -/
structure HookCall where
  hook : Hook
  /-- The party that is added or destroyed. -/
  target : Option PartyId
  /-- Number of calls of this hook of this driver before. -/
  earlier : Nat

namespace Glimpse

/-- The remote parties that a call is about. -/
def scopeRemotes (g : Glimpse) (target : Option PartyId) : List PartyId :=
  match target with
  | none => g.graph.allRemotes
  | some id => if g.graph.isTenant id then g.graph.remotesOf (.owned id) else [id]

/-- The parties that own others and that a call is about. -/
def scopeLocals (g : Glimpse) (target : Option PartyId) : List PartyRef :=
  match target with
  | none => .root :: g.graph.tenants.map .owned
  | some id => if g.graph.isTenant id then [.owned id] else []

end Glimpse

/-- A driver of a feature. -/
structure Driver where
  binding : Binding
  behaviour : HookCall → DriverScript

end PartyGraph
