import PartyGraph.Scenario.Job
import PartyGraph.Trampoline.Workshop

/-!
# Scenarios of a workshop

A scenario is a list of steps. It starts with one runner, whose trampoline is the current one, and
every step is answered by a reply and by the lines that its jobs noted.

## Main definitions

* `WorkshopStep`, `WorkshopReply`: the steps and their replies.
* `WorkshopScenario.play`: all steps in order.
-/

namespace PartyGraph

/-- A step of a scenario. A runner that is not told is the last one. -/
inductive WorkshopStep where
  | register (job : ScriptedJob)
  | run (mode : RunMode) (runner : Option Nat)
  | newTrampoline
  | newRunner
  | bind (share : Bool)
  | phase
  | form (runner : Option Nat)
  | memory (request : Memory.Request)
  | unknown

/-- The reply to a step. -/
inductive WorkshopReply where
  | ok
  | refused (e : TrampolineError)
  | outcome (o : Run.Outcome)
  | noSuchRunner
  | phase (p : Phase)
  | forms (trampoline runner : String)
  | memory (a : Memory.Answer)
  | unknown

/-- A workshop with a current trampoline. -/
structure WorkshopScenario where
  workshop : Workshop
  current : Nat

namespace WorkshopScenario

/-- The beginning: one runner, whose trampoline is the current one. -/
def start : WorkshopScenario := ⟨Workshop.empty.addRunner, 0⟩

/-- The number of the runner that a step means. -/
def runnerOf (s : WorkshopScenario) (runner : Option Nat) : Nat :=
  runner.getD (s.workshop.runners.size - 1)

/-- The memory of the last runner. -/
def lastMemory (s : WorkshopScenario) : Nat :=
  (s.workshop.runners[s.workshop.runners.size - 1]?.map (·.memory)).getD 0

/-- One step. -/
def step (s : WorkshopScenario) : WorkshopStep → WorkshopReply × WorkshopScenario
  | .register job =>
    match s.workshop.register s.current s.lastMemory job.kind job.deed with
    | .ok w => (.ok, { s with workshop := w })
    | .error e => (.refused e, s)
  | .run mode runner =>
    match s.workshop.runners[s.runnerOf runner]? with
    | none => (.noSuchRunner, s)
    | some r =>
      match s.workshop.execute (s.runnerOf runner) r mode with
      | .ok (o, w) => (.outcome o, { s with workshop := w })
      | .error e => (.refused e, s)
  | .newTrampoline =>
    (.ok, ⟨s.workshop.addTrampoline, s.workshop.trampolines.size⟩)
  | .newRunner => (.ok, ⟨s.workshop.addRunner, s.workshop.trampolines.size⟩)
  | .bind share =>
    let (memory, w) :=
      if share then (s.lastMemory, s.workshop)
      else (s.workshop.bench.memories.size, s.workshop.addMemory)
    match w.bind s.current memory with
    | .ok w' => (.ok, { s with workshop := w' })
    | .error e => (.refused e, s)
  | .phase => (.phase (s.workshop.trampoline s.current).phase, s)
  | .form runner =>
    let form := s.workshop.runners[s.runnerOf runner]?.map s.workshop.runnerForm
    (.forms (s.workshop.trampolineForm s.current) (Text.optional form), s)
  | .memory request =>
    let (a, m) := (s.workshop.bench.memory s.lastMemory).perform request
    let bench := s.workshop.bench.setMemory s.lastMemory m
    (.memory a, { s with workshop.bench := bench })
  | .unknown => (.unknown, s)

/-- Takes the lines noted so far. -/
def takeLog (s : WorkshopScenario) : List String × WorkshopScenario :=
  (s.workshop.bench.log.reverse, { s with workshop.bench.log := [] })

/-- The replies to steps, with the lines noted during each. -/
def replies (s : WorkshopScenario) : List WorkshopStep → List (WorkshopReply × List String)
  | [] => []
  | step :: rest =>
    let (reply, s) := s.step step
    let (lines, s) := s.takeLog
    (reply, lines) :: replies s rest

/-- Plays a scenario. -/
def play (steps : List WorkshopStep) : List (WorkshopReply × List String) := start.replies steps

end WorkshopScenario

end PartyGraph
