import PartyGraph.Agent.Basic
import PartyGraph.Trampoline.Script

/-!
# Scenarios of an agent

A scenario drives one agent by a list of steps. Its handler does what tasks written as data tell:
a task notes its name, perhaps sleeps, and goes through its effects. Time stands still but in steps
that advance it, and the loop of the agent runs only in steps that let it.

## Main definitions

* `AgentTask`, `AgentEffect`: the data.
* `AgentScenario`: the agent with its clock and log.
* `AgentStep`, `AgentReply`: the steps and their replies.
* `AgentScenario.play`: all steps in order.
-/

namespace PartyGraph

/-- How a task was posted, which shows in the log. -/
inductive PostedAs where
  | job
  | action
  | task
deriving DecidableEq, Repr

/-- The word for how a task was posted. -/
def PostedAs.text : PostedAs → String
  | job => "job"
  | action => "action"
  | task => "task"

mutual

/-- What a handler does: sleep for a number of milliseconds, if one is told, then the effects. -/
inductive AgentTask where
  | mk (name : String) (via : PostedAs) (sleep : Option Nat) (effects : List AgentEffect)
      (ending : Ending)

/-- A single thing that a handler does. -/
inductive AgentEffect where
  | post (task : AgentTask)
  | stop
  | start
  | status
  | finished

end

namespace AgentTask

instance : Inhabited AgentTask := ⟨mk "" .job none [] .succeeded⟩

/-- The name of the task. -/
def name : AgentTask → String
  | mk name _ _ _ _ => name

/-- How the task was posted. -/
def via : AgentTask → PostedAs
  | mk _ via _ _ _ => via

/-- How long the task sleeps. An action, which is over at once, does not. -/
def sleep : AgentTask → Option Nat
  | mk _ .action _ _ _ => none
  | mk _ _ sleep _ _ => sleep

/-- The effects of the task. -/
def effects : AgentTask → List AgentEffect
  | mk _ _ _ effects _ => effects

mutual

/-- Number of tasks in a task, itself included. -/
def weight : AgentTask → Nat
  | mk _ _ _ effects _ => 1 + effectsWeight effects

/-- Number of tasks in effects. -/
def effectsWeight : List AgentEffect → Nat
  | [] => 0
  | .post task :: rest => weight task + effectsWeight rest
  | _ :: rest => effectsWeight rest

end

end AgentTask

/-- What the handler does when the agent calls it other than for a posted task. -/
structure AgentPlan where
  veto : Bool
  onStart : AgentTask
  onStop : AgentTask
  onHeartbeat : AgentTask

/-- An agent under way. -/
structure AgentScenario where
  plan : AgentPlan
  agent : Agent AgentTask
  /-- Whether the agent can still be asked for anything. -/
  held : Bool
  /-- Whether the agent has been released. -/
  released : Bool
  /-- Milliseconds since the beginning. -/
  clock : Nat
  /-- The task that the handler is asleep in, and when it wakes. -/
  asleep : Option (Nat × AgentTask)
  /-- The steps that wait for the loop to leave, the latest first. -/
  joins : List Nat
  /-- The latest line first. -/
  log : List String

/-- A step of a scenario. -/
inductive AgentStep where
  | start
  | stop
  | post (task : AgentTask)
  | status
  | finished
  | skipped
  | name
  | join
  | settle
  | advance (ms : Nat)
  | drop
  | unknown

/-- The reply to a step. -/
inductive AgentReply where
  | ok
  | status (s : AgentStatus)
  | truth (b : Bool)
  | count (n : Nat)
  | text (s : String)
  | joined
  | pending
  | refused (e : AgentError)
  | noAgent
  | unknown

namespace AgentScenario

/-- Notes a line. -/
def note (s : AgentScenario) (line : String) : AgentScenario := { s with log := line :: s.log }

/-- Virtual time in microseconds. -/
def now (s : AgentScenario) : Nat := s.clock * 1000

/-- Attempts the start. The handler is consulted, and notes it, at the first attempt only. -/
def tryStart (s : AgentScenario) : AgentScenario :=
  let s' := if s.agent.startAttempted then s else s.note "on_try_start"
  { s' with agent := s.agent.tryStart (!s.plan.veto) s.now }

/-- One effect of a task. -/
def effect (s : AgentScenario) (e : AgentEffect) : AgentScenario :=
  if s.released then s.note "no agent"
  else match e with
    | .post task =>
      match s.agent.post task with
      | .ok a => { s with agent := a }.note ("posted " ++ task.name)
      | .error e => s.note ("refused " ++ task.name ++ ": " ++ e.message)
    | .stop =>
      let (b, a) := s.agent.sendStop
      { s with agent := a }.note ("send_stop " ++ toString b)
    | .start =>
      let s := s.tryStart
      s.note ("try_start " ++ s.agent.status.text)
    | .status => s.note ("status " ++ s.agent.status.text)
    | .finished => s.note ("finished " ++ toString s.agent.isFinished)

/-- The effects of a task, after which the handler is done. -/
def perform (s : AgentScenario) (task : AgentTask) : AgentScenario :=
  let s := task.effects.foldl effect s
  { s with asleep := none, agent := s.agent.finish }

/-- The handler begins a task, noting `label` first. -/
def begin (s : AgentScenario) (label : String) (task : AgentTask) : AgentScenario :=
  let s := s.note (label ++ " " ++ task.name)
  match task.sleep with
  | none => s.perform task
  | some ms => { s with asleep := some (s.clock + ms, task) }

/-- The handler takes a call. -/
def handle (s : AgentScenario) : Agent.Call AgentTask → AgentScenario
  | .start => s.begin "on_start" s.plan.onStart
  | .stop => s.begin "on_stop" s.plan.onStop
  | .heartbeat count => s.begin ("beat " ++ toString count) s.plan.onHeartbeat
  | .job task => s.begin task.via.text task

/-- One turn of the loop, unless it has nothing to do or sleeps. -/
def turn (s : AgentScenario) : Option AgentScenario :=
  match s.asleep with
  | some (wake, task) =>
    if wake ≤ s.clock then some ((s.note ("wake " ++ task.name)).perform task) else none
  | none =>
    match s.agent.take with
    | none => none
    | some (.exit _, a) => some { s with agent := a }
    | some (.call c, a) => some ({ s with agent := a }.handle c)

/-- At most `n` turns of the loop. -/
def turns : Nat → AgentScenario → AgentScenario
  | 0, s => s
  | n + 1, s =>
    match s.turn with
    | none => s
    | some s' => turns n s'

/-- Number of turns that a message can lead to. -/
def messageWeight (s : AgentScenario) : Agent.Message AgentTask → Nat
  | .job task => 2 * task.weight
  | .heartbeat => 2 * s.plan.onHeartbeat.weight
  | .stop => 2 * s.plan.onStop.weight + 1
  | .close => 1

/-- A bound on the turns that the loop can take while time stands still: every message that it
handles is in the mailbox already or in a task that will be handled, and the start, the stop and
the task it sleeps in come on top. A task takes one turn to begin and perhaps one to wake. -/
def turnBound (s : AgentScenario) : Nat :=
  ((s.agent.mailbox.map s.messageWeight).foldl (· + ·) 0)
    + 2 * s.plan.onStart.weight + 2 * s.plan.onStop.weight
    + (match s.asleep with
      | some (_, task) => 2 * task.weight
      | none => 0) + 2

/-- The loop runs until it has nothing more to do at the present time. -/
def settle (s : AgentScenario) : AgentScenario := turns s.turnBound s

/-- A millisecond passes, and the loop runs. -/
def passTime (s : AgentScenario) : AgentScenario :=
  let s := { s with clock := s.clock + 1 }
  { s with agent := s.agent.tickAt s.now }.settle

/-- A number of milliseconds pass. -/
def passTimes : Nat → AgentScenario → AgentScenario
  | 0, s => s
  | n + 1, s => passTimes n s.passTime

/-- The steps that waited for the loop to leave, if it has. -/
def takeJoined (s : AgentScenario) : List Nat × AgentScenario :=
  if s.agent.isFinished then (s.joins.reverse, { s with joins := [] }) else ([], s)

/-- Lets go of the agent, unless a step still waits for its loop to leave. -/
def drop (s : AgentScenario) : AgentScenario :=
  let s := { s with held := false }
  if s.joins.isEmpty then { s with released := true, agent := s.agent.release } else s

/-- Step number `i`: the reply, and the earlier steps that are answered now. -/
def step (s : AgentScenario) (i : Nat) : AgentStep → (AgentReply × List Nat) × AgentScenario
  | .settle =>
    let (joined, s) := s.settle.takeJoined
    ((.ok, joined), s)
  | .advance ms =>
    let (joined, s) := (passTimes ms s.settle).takeJoined
    ((.ok, joined), s)
  | st =>
    if !s.held then ((.noAgent, []), s)
    else match st with
      | .start =>
        let s := s.tryStart
        ((.status s.agent.status, []), s)
      | .stop =>
        let (b, a) := s.agent.sendStop
        ((.truth b, []), { s with agent := a })
      | .post task =>
        match s.agent.post task with
        | .ok a => ((.ok, []), { s with agent := a })
        | .error e => ((.refused e, []), s)
      | .status => ((.status s.agent.status, []), s)
      | .finished => ((.truth s.agent.isFinished, []), s)
      | .skipped => ((.count s.agent.skipped, []), s)
      | .name => ((.text s.agent.name, []), s)
      | .join =>
        if s.agent.status = .waitingForStart || s.agent.isFinished then ((.joined, []), s)
        else ((.pending, []), { s with joins := i :: s.joins })
      | .drop => ((.ok, []), s.drop)
      | _ => ((.unknown, []), s)

/-- The replies to the steps from number `i` on, each with the lines noted during the step and the
earlier steps answered by it. -/
def replies (s : AgentScenario) (i : Nat) :
    List AgentStep → List (AgentReply × List String × List Nat)
  | [] => []
  | st :: rest =>
    let ((reply, joined), s) := s.step i st
    (reply, s.log.reverse, joined) :: replies { s with log := [] } (i + 1) rest

/-- Plays a scenario with an agent of a name and a heartbeat period in microseconds. -/
def play (name : String) (period : Option Nat) (plan : AgentPlan) (steps : List AgentStep) :
    Except AgentError (List (AgentReply × List String × List Nat)) :=
  match Agent.new name period with
  | .error e => .error e
  | .ok agent => .ok (replies ⟨plan, agent, true, false, 0, none, [], []⟩ 0 steps)

end AgentScenario

end PartyGraph
