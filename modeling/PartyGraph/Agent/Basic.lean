import PartyGraph.Agent.Error

/-!
# Agents

An agent has a mailbox and a loop that handles its messages one at a time, in the order in which
they were accepted. Messages may be posted before the loop runs and while a handler runs, by anyone
and by handlers too. A request to stop puts a stop message into the mailbox; once it is handled a
close message follows, and when the loop takes that one it leaves and drops what is left. Messages
accepted between the two are still handled.

An agent with a heartbeat has a timer. A tick puts a heartbeat message into the mailbox, unless the
one before is still waiting or being handled; then the tick is counted as skipped.

The timer, the loop and whoever asks for the stop go on side by side, and each of them takes several
steps for what it does. The timer shuts the gate before it sends the heartbeat, and a request to
stop asks the timer to end before the stop message is sent. Others may come between such steps: a
timer that is at work then finishes what it is at, and only does not begin again. What nobody can
come between is one step here. Those who only ever see an agent at rest, with one thing done after
the other, take the steps together (`Agent.tick`, `Agent.sendStop`, `Agent.release`).

Time is a number of microseconds that the owner of the agent passes in.

## Main definitions

* `Agent`: the state, for jobs of type `J`.
* `Agent.tryStart`, `Agent.post`: what happens to an agent from outside.
* `Agent.halt`, `Agent.sendHalt`: the two steps of a request to stop, and `Agent.abandon` is the
  first when the last owner lets go.
* `Agent.wake`, `Agent.strike`, `Agent.settle`, `Agent.doze`: the steps of the timer.
* `Agent.sendStop`, `Agent.release`, `Agent.tick`: these steps with nothing in between.
* `Agent.take`, `Agent.finish`: the loop takes a message, and is done with it.
* `Agent.Move`, `Agent.play`: any sequence of these, each with its answer.
-/

namespace PartyGraph

/-- The states of an agent as others see it. -/
inductive AgentStatus where
  | waitingForStart
  | running
  | stopped
deriving DecidableEq, Repr

/-- The name of a status. -/
def AgentStatus.text : AgentStatus → String
  | waitingForStart => "WaitingForStart"
  | running => "Running"
  | stopped => "Stopped"

namespace Agent

variable {J : Type}

/-- The messages of a mailbox. -/
inductive Message (J : Type) where
  | job (j : J)
  | heartbeat
  | stop
  | close
deriving DecidableEq, Repr

/-- What the loop asks of the handler. -/
inductive Call (J : Type) where
  | start
  | job (j : J)
  | heartbeat (count : Nat)
  | stop
deriving DecidableEq, Repr

/-- Where the loop is. -/
inductive Loop (J : Type) where
  /-- It has not been started. -/
  | absent
  /-- It has been started and has not called the handler yet. -/
  | fresh
  /-- It waits for a message. -/
  | waiting
  /-- The handler is at work. -/
  | calling (c : Call J)
  /-- It has left. -/
  | exited
deriving DecidableEq, Repr

/-- Where the timer is. -/
inductive Timer where
  /-- It waits for its next tick, or there is none. -/
  | asleep
  /-- It is at work, and looks whether a tick is due. -/
  | awake
  /-- It has taken a tick and shut the gate, and is about to send a heartbeat. -/
  | sending
  /-- It has taken a tick and found the gate shut, and is about to count it. -/
  | skipping
deriving DecidableEq, Repr

end Agent

/-- An agent. -/
structure Agent (J : Type) where
  name : String
  /-- Time between two ticks, if the agent has a heartbeat. -/
  period : Option Nat
  status : AgentStatus
  /-- Whether a start was attempted, approved or not. -/
  startAttempted : Bool
  mailbox : List (Agent.Message J)
  loop : Agent.Loop J
  /-- The gate, which is shut from a tick on until its heartbeat has been handled. -/
  busy : Bool
  /-- Number of heartbeats handed to the handler. -/
  beats : Nat
  /-- Number of ticks that are counted as skipped. -/
  skipped : Nat
  /-- When the timer is due, while there is one that was not asked to end. -/
  due : Option Nat
  timer : Agent.Timer
  /-- Whether someone is about to send the stop message. -/
  stopping : Bool

namespace Agent

variable {J : Type}

/-- The shortest time between two ticks. -/
def minPeriod : Nat := 20000

/-- An agent that waits for its start. -/
def new (name : String) (period : Option Nat) : Except AgentError (Agent J) :=
  let agent : Agent J :=
    ⟨name, period, .waitingForStart, false, [], .absent, false, 0, 0, none, .asleep, false⟩
  match period with
  | none => .ok agent
  | some us =>
    if us < minPeriod then .error (.invalidHeartbeat (Text.Span.ofMicros us)) else .ok agent

/-- Attempts the start at a time. Only the first attempt counts: it succeeds when it is `approved`,
and an agent that was refused waits for good. -/
def tryStart (a : Agent J) (approved : Bool) (now : Nat) : Agent J :=
  if a.startAttempted then a
  else if approved then
    { a with
      startAttempted := true, status := .running, loop := .fresh,
      due := a.period.map (now + ·) }
  else { a with startAttempted := true }

/-- Whether messages are still accepted. -/
def isOpen (a : Agent J) : Bool :=
  match a.loop with
  | .exited => false
  | _ => true

/-- Whether the loop has left. -/
def isFinished (a : Agent J) : Bool := !a.isOpen

/-- The agent with one more message at the end of its mailbox, if that is open. -/
def send (a : Agent J) (m : Message J) : Agent J :=
  if a.isOpen then { a with mailbox := a.mailbox ++ [m] } else a

/-- Posts a job. -/
def post (a : Agent J) (j : J) : Except AgentError (Agent J) :=
  if a.isOpen then .ok (a.send (.job j)) else .error (.mailboxClosed a.name)

/-- The stop of a running agent is requested: the timer is asked to end. -/
def halt (a : Agent J) : Agent J :=
  if a.status = .running then { a with status := .stopped, due := none, stopping := true } else a

/-- The stop message that is owed is sent. -/
def sendHalt (a : Agent J) : Agent J :=
  if a.stopping then { a with stopping := false }.send .stop else a

/-- Requests the stop of an agent. The answer is whether it was running. -/
def sendStop (a : Agent J) : Bool × Agent J :=
  if a.status = .running then (a.isOpen, a.halt.sendHalt) else (false, a)

/-- The timer begins to work, unless it has been asked to end. -/
def wake (a : Agent J) : Agent J :=
  if a.due.isSome && a.timer = .asleep then { a with timer := .awake } else a

/-- The timer takes a tick. If the gate is open it is shut. -/
def strike (a : Agent J) : Agent J :=
  match a.timer with
  | .awake =>
    let next := { a with due := a.due.bind fun t => a.period.map (t + ·) }
    if a.busy then { next with timer := .skipping }
    else { next with timer := .sending, busy := true }
  | _ => a

/-- The timer does what the tick leads to. Once nothing is accepted any more it ends. -/
def settle (a : Agent J) : Agent J :=
  match a.timer with
  | .sending =>
    if a.isOpen then { a with timer := .awake }.send .heartbeat
    else { a with timer := .asleep, due := none }
  | .skipping => { a with timer := .awake, skipped := a.skipped + 1 }
  | _ => a

/-- The timer has nothing more to do. -/
def doze (a : Agent J) : Agent J :=
  match a.timer with
  | .awake => { a with timer := .asleep }
  | _ => a

/-- The timer is due. -/
def tick (a : Agent J) : Agent J := a.wake.strike.settle.doze

/-- Ticks if the timer is due at a time. -/
def tickAt (a : Agent J) (now : Nat) : Agent J :=
  match a.due with
  | none => a
  | some t => if t ≤ now then a.tick else a

/-- The last owner lets go of the agent: the timer is asked to end and the stop of a running agent
is requested; one that was not started is gone with its mailbox. -/
def abandon (a : Agent J) : Agent J :=
  match a.loop with
  | .absent => { a with due := none, mailbox := [], loop := .exited }
  | _ => { a.halt with due := none }

/-- The last owner lets go of the agent, and a running agent is stopped. -/
def release (a : Agent J) : Agent J := a.abandon.sendHalt

/-- What the loop does next. -/
inductive Turn (J : Type) where
  /-- It calls the handler. -/
  | call (c : Call J)
  /-- It leaves and drops the jobs that are left. -/
  | exit (dropped : List J)
deriving DecidableEq, Repr

/-- The job of a message, if it is one. -/
def Message.job? : Message J → Option J
  | job j => some j
  | _ => none

/-- The loop takes its next turn, if it is free and there is something to do. -/
def take (a : Agent J) : Option (Turn J × Agent J) :=
  match a.loop, a.mailbox with
  | .fresh, _ => some (.call .start, { a with loop := .calling .start })
  | .waiting, .job j :: rest =>
    some (.call (.job j), { a with mailbox := rest, loop := .calling (.job j) })
  | .waiting, .heartbeat :: rest =>
    some (.call (.heartbeat a.beats),
      { a with mailbox := rest, loop := .calling (.heartbeat a.beats), beats := a.beats + 1 })
  | .waiting, .stop :: rest =>
    some (.call .stop, { a with mailbox := rest, loop := .calling .stop })
  | .waiting, .close :: rest =>
    some (.exit (rest.filterMap Message.job?), { a with mailbox := [], loop := .exited })
  | _, _ => none

/-- The handler is done, well or badly. After a heartbeat the gate is free again; the stop is
followed by a close message. -/
def finish (a : Agent J) : Agent J :=
  match a.loop with
  | .calling (.heartbeat _) => { a with loop := .waiting, busy := false }
  | .calling .stop => { a with loop := .waiting }.send .close
  | .calling _ => { a with loop := .waiting }
  | _ => a

/-! ### Histories -/

/-- One thing that happens to an agent. -/
inductive Move (J : Type) where
  | tryStart (approved : Bool) (now : Nat)
  | post (j : J)
  | halt
  | sendStop
  | wake
  | strike
  | settle
  | doze
  | release
  | take
  | finish
deriving DecidableEq, Repr

/-- What is learned from a move. -/
inductive Answer (J : Type) where
  | none
  /-- The timer took a tick and found the gate open, or shut. -/
  | ticked (free : Bool)
  /-- Whether the heartbeat of a tick was accepted. -/
  | beat (accepted : Bool)
  /-- The status after an attempt to start, and whether the handler was consulted. -/
  | status (s : AgentStatus) (consulted : Bool)
  | accepted
  | refused (e : AgentError)
  | stopping (b : Bool)
  | turn (t : Option (Turn J))
deriving DecidableEq, Repr

/-- Performs a move. -/
def move (a : Agent J) : Move J → Answer J × Agent J
  | .tryStart approved now =>
    let a' := a.tryStart approved now
    (.status a'.status (!a.startAttempted), a')
  | .post j =>
    match a.post j with
    | .ok a' => (.accepted, a')
    | .error e => (.refused e, a)
  | .halt => (if a.status = .running then .none else .stopping false, a.halt)
  | .sendStop => (if a.stopping then .stopping a.isOpen else .none, a.sendHalt)
  | .wake => (.none, a.wake)
  | .strike => (if a.timer = .awake then .ticked (!a.busy) else .none, a.strike)
  | .settle => (if a.timer = .sending then .beat a.isOpen else .none, a.settle)
  | .doze => (.none, a.doze)
  | .release => (.none, a.abandon)
  | .take =>
    match a.take with
    | some (t, a') => (.turn (some t), a')
    | none => (.turn .none, a)
  | .finish => (.none, a.finish)

/-- Performs moves in order; each is kept with its answer. -/
def play (a : Agent J) : List (Move J) → List (Move J × Answer J) × Agent J
  | [] => ([], a)
  | m :: rest =>
    let (answer, a) := a.move m
    let (history, a) := a.play rest
    ((m, answer) :: history, a)

end Agent

end PartyGraph
