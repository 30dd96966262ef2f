import PartyGraph.Service.Request
import PartyGraph.Trampoline.Run

/-!
# Passes over the drivers

A pass calls all drivers on one trampoline with one memory, in the order of their registration or,
to tear down, in the reverse order. Drivers may register further jobs on the trampoline.

When parties are added, a pass calls the drivers for each of them, and the parties are put into the
graph only when no action failed. This is itself a job of the pass, registered by the first success
handler as a success handler, so that it comes after those which drivers have registered.

## Main definitions

* `PassJob`: the jobs of a pass.
* `Desk`: what they act on.
* `Service.publish`: puts parties into the graph.
* `Service.runPass`: a whole pass.
* `Service.setUp`, `Service.setUpDynamic`, `Service.tearDownDynamic`, `Service.tearDown`: the four
  sorts of passes.

## Main results

* `PassJob.wellFounded_below`: every pass comes to its end.
-/

namespace PartyGraph

/-- The jobs of a pass. -/
inductive PassJob where
  /-- The driver at a position is called. -/
  | call (position : Nat) (hook : Hook) (target : Option PartyId)
  /-- A job that a driver has registered. -/
  | deed (d : DriverDeed)
  /-- Registers the publication. -/
  | arrange (b : Batch)
  /-- Puts the parties of a batch into the graph. -/
  | publish (b : Batch)

/-- What the jobs of a pass may ask. -/
inductive PassCommand where
  | driver (c : DriverCommand)
  /-- Notes that a driver is called; the answer is the number of such calls before. -/
  | enter (position : Nat) (hook : Hook) (target : Option PartyId)
  | publish (b : Batch)

/-- What they are answered. -/
abbrev PassCommand.Answer : PassCommand → Type
  | driver c => c.Answer
  | enter _ _ _ => Nat
  | publish _ => Unit

/-- What the jobs of a pass act on: the service, and the memory that they share. -/
structure Desk where
  service : Service
  memory : Memory

namespace Service

/-- Puts a party into the graph, and tells those who want to know. -/
def publishRemote (s : Service) (owner : PartyRef) (id : PartyId) : Service :=
  (s.change (.insert id)).tellOfRemote owner (.appeared id)

/-- Puts a tenant domain into the graph, and with it the remote parties that it owns. -/
def publishTenant (s : Service) (id : PartyId) : Service :=
  let s := (s.change (.insert id)).tell .all (.party (.appeared id))
  (s.graph.remotesOf (.owned id)).foldl
    (fun s r => s.tellOfRemote (.owned id) (.appeared r)) s

/-- Puts the parties of a batch into the graph: remote parties, then tenant domains. -/
def publish (s : Service) (b : Batch) : Service :=
  let s := b.remotes.foldl (fun s id => s.publishRemote b.owner id) s
  b.tenants.foldl publishTenant s

end Service

namespace Desk

/-- Takes the command of a job. -/
def answer : (c : PassCommand) → Desk → c.Answer × Desk
  | .driver (.job .fetch), d => (d.memory, d)
  | .driver (.job (.store m)), d => ((), { d with memory := m })
  | .driver (.job (.note line)), d =>
    ((), { d with service := { d.service with notes := line :: d.service.notes } })
  | .driver .look, d => (d.service.glimpse, d)
  | .driver (.attach p type value), d =>
    let (a, s) := d.service.attach p type value
    (a, { d with service := s })
  | .driver (.request r), d =>
    let (a, s) := d.service.request r
    (a, { d with service := s })
  | .enter position hook target, d =>
    (d.service.callsOf position hook,
      { d with service := d.service.record (.called position hook target) })
  | .publish b, d => ((), { d with service := d.service.publish b })

end Desk

namespace PassJob

/-- What a driver or a job of one does in a pass. -/
def ofDriver (s : DriverScript) : Script PassJob PassCommand PassCommand.Answer :=
  s.map deed .driver fun _ a => a

/-- What a job does, where `drivers` are called. -/
def script (drivers : List Driver) : PassJob → Script PassJob PassCommand PassCommand.Answer
  | call position hook target =>
    .ask (.enter position hook target) fun earlier =>
      match drivers[position]? with
      | some d => ofDriver (d.behaviour ⟨hook, target, earlier⟩)
      | none => .finish .succeeded
  | deed d => ofDriver d.script
  | arrange b =>
    .register .success (publish b) fun
      | none => .finish .succeeded
      | some e => .finish (.failed (.ofTrampoline e))
  | publish b => .ask (.publish b) fun _ => .finish .succeeded

/-- The jobs of a pass that calls `drivers`. -/
def system (drivers : List Driver) : JobSystem PassJob Desk where
  Command := PassCommand
  Answer := PassCommand.Answer
  script := script drivers
  answer := Desk.answer

end PassJob

namespace PassJob

variable {drivers : List Driver}

theorem acc_publish (b : Batch) : Acc (system drivers).Below (publish b) :=
  ⟨_, fun _ h => by
    cases h with
    | ask _ h => cases h⟩

theorem acc_arrange (b : Batch) : Acc (system drivers).Below (arrange b) :=
  ⟨_, fun k h => by
    cases h with
    | here => exact acc_publish b
    | after r h => cases r <;> cases h⟩

theorem acc_deed (d : DriverDeed) : Acc (system drivers).Below (deed d) := by
  induction Deed.acc_below d with
  | intro d _ ih =>
    refine ⟨_, fun k h => ?_⟩
    obtain ⟨e, he, rfl⟩ := Script.mentions_map h
    exact ih e he

theorem acc_call (position : Nat) (hook : Hook) (target : Option PartyId) :
    Acc (system drivers).Below (call position hook target) :=
  ⟨_, fun k h => by
    cases h with
    | ask a h =>
      cases hd : drivers[position]? with
      | none => rw [hd] at h; cases h
      | some d =>
        rw [hd] at h
        obtain ⟨e, _, rfl⟩ := Script.mentions_map h
        exact acc_deed e⟩

/-- No chain of jobs of a pass each registering the next is infinite. -/
theorem wellFounded_below : WellFounded (system drivers).Below :=
  ⟨fun
    | call position hook target => acc_call position hook target
    | deed d => acc_deed d
    | arrange b => acc_arrange b
    | publish b => acc_publish b⟩

/-- Whether a job puts parties into the graph. -/
def isPublication : PassJob → Bool
  | publish _ => true
  | _ => false

end PassJob

namespace Service

/-- Runs a pass of actions and of success handlers to its end. -/
def runPass (s : Service) (actions success : List PassJob) : Run PassJob Desk :=
  let t : Trampoline PassJob :=
    { (Trampoline.empty : Trampoline PassJob) with claimed := true, actions, success }
  (Run.start t ⟨s, Memory.empty⟩).toEnd (PassJob.system s.registry.drivers) .all
    (Run.acc_stepOf PassJob.wellFounded_below .all _)

/-- The calls of all drivers for a target, in the order of their registration. -/
def callsFor (s : Service) (hook : Hook) (target : Option PartyId) : List PassJob :=
  (List.range s.registry.drivers.length).map fun position => .call position hook target

end Service

/-- The failure of a pass in which something failed. -/
def Run.Outcome.passFailure (o : Run.Outcome) : ActionError :=
  o.failure.getD
    (.failed ("lifecycle result is " ++ o.flags.form ++ ": it is not safe to continue"))

namespace Service

/-- Calls the drivers at the start. Nothing must fail. -/
def setUp (s : Service) : Except ActionError Unit × Service :=
  let run := (s.record (.passBegun .setup [])).runPass (s.callsFor .setup none) []
  let result :=
    if run.outcome.flags.isTotalSuccess then .ok () else .error run.outcome.passFailure
  (result, run.world.service)

/-- Calls the drivers for the parties of a batch, and puts these into the graph when no action
failed. -/
def setUpDynamic (s : Service) (b : Batch) : Except ActionError Unit × Service :=
  let run := (s.record (.passBegun .setupDynamic b.parties)).runPass
    (b.parties.flatMap fun id => s.callsFor .setupDynamic (some id)) [.arrange b]
  let published := run.performed.any fun p => p.job.isPublication
  (if published then .ok () else .error run.outcome.passFailure, run.world.service)

/-- Calls the drivers for a party that is destroyed. -/
def tearDownDynamic (s : Service) (id : PartyId) : Service :=
  ((s.record (.passBegun .teardownDynamic [id])).runPass
    (s.callsFor .teardownDynamic (some id)).reverse []).world.service

/-- Calls the drivers at the end. -/
def tearDown (s : Service) : Service :=
  ((s.record (.passBegun .teardown [])).runPass
    (s.callsFor .teardown none).reverse []).world.service

end Service

end PartyGraph
