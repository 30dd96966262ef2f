import PartyGraph.Trampoline.Deed
import PartyGraph.Trampoline.Stride

/-!
# Workshops

A workshop holds trampolines, the memories of their jobs, and runners. A runner is bound to one
trampoline, which no other runner may claim, and runs it once. Jobs are registered from outside
together with the memory that they use; those that they register themselves use the same one.

A run is launched and then takes strides, and between two of them anything else may be asked of the
workshop. `Workshop.execute` is a run to its end with nothing in between.

## Main definitions

* `Workshop`: the three collections and the log.
* `Workshop.register`, `Workshop.bind`: jobs and runners for a trampoline.
* `Workshop.launch`, `Workshop.stride`, `Workshop.execute`: runs.
-/

namespace PartyGraph

/-- A job with the number of the memory that it uses. -/
structure Placed where
  memory : Nat
  deed : Deed JobCommand JobCommand.Answer

/-- What jobs act on: memories, and a log of lines, the latest first. -/
structure Bench where
  memories : Array Memory
  log : List String

namespace Bench

/-- The memory of a number; one that does not exist is empty. -/
def memory (b : Bench) (i : Nat) : Memory := b.memories.getD i Memory.empty

/-- The bench with another memory of a number. -/
def setMemory (b : Bench) (i : Nat) (m : Memory) : Bench :=
  { b with memories := b.memories.setIfInBounds i m }

/-- Takes the command of a job that uses the memory of a number. -/
def answer (i : Nat) : (c : JobCommand) → Bench → c.Answer × Bench
  | .fetch, b => (b.memory i, b)
  | .store m, b => ((), b.setMemory i m)
  | .note line, b => ((), { b with log := line :: b.log })

end Bench

namespace Placed

/-- A command together with the memory that it concerns. -/
structure Command where
  memory : Nat
  command : JobCommand

/-- What placed jobs do. -/
def system : JobSystem Placed Bench where
  Command := Command
  Answer c := c.command.Answer
  script p := p.deed.script.map (⟨p.memory, ·⟩) (⟨p.memory, ·⟩) fun _ a => a
  answer c := Bench.answer c.memory c.command

/-- Placed jobs are well founded because deeds are. -/
theorem wellFounded_below : WellFounded system.Below := by
  refine Subrelation.wf (r := InvImage Deed.Below Placed.deed) ?_
    (InvImage.wf _ Deed.wellFounded_below)
  intro k j h
  obtain ⟨d, hd, rfl⟩ := Script.mentions_map h
  exact hd

end Placed

/-- How far a run has come, apart from its trampoline and the bench, which others use too. -/
structure Course where
  mode : RunMode
  performed : List (Performed Placed)
  stage : RunStage Placed.system

/-- A runner: the trampoline that it is bound to, its memory, whether it has been asked to run, and
its run. -/
structure Runner where
  trampoline : Nat
  memory : Nat
  executed : Bool
  course : Option Course

/-- Trampolines, memories and runners, by number. -/
structure Workshop where
  bench : Bench
  trampolines : Array (Trampoline Placed)
  runners : Array Runner

namespace Workshop

/-- The workshop without anything. -/
def empty : Workshop := ⟨⟨#[], []⟩, #[], #[]⟩

instance : Inhabited Workshop := ⟨empty⟩

/-- The trampoline of a number; one that does not exist is empty. -/
def trampoline (w : Workshop) (t : Nat) : Trampoline Placed := w.trampolines.getD t .empty

/-- Adds an unclaimed trampoline, which has the next number. -/
def addTrampoline (w : Workshop) : Workshop :=
  { w with trampolines := w.trampolines.push .empty }

/-- Adds an empty memory, which has the next number. -/
def addMemory (w : Workshop) : Workshop :=
  { w with bench.memories := w.bench.memories.push Memory.empty }

/-- Binds a new runner to a trampoline, to use a memory. -/
def bind (w : Workshop) (t memory : Nat) : Except TrampolineError Workshop :=
  match (w.trampoline t).claim with
  | .error e => .error e
  | .ok claimed => .ok { w with
      trampolines := w.trampolines.setIfInBounds t claimed
      runners := w.runners.push ⟨t, memory, false, none⟩ }

/-- Adds a runner with a trampoline and a memory of its own. The trampoline being new, no other
runner can have claimed it. -/
def addRunner (w : Workshop) : Workshop :=
  let w' := w.addTrampoline.addMemory
  match w'.bind w.trampolines.size w.bench.memories.size with
  | .ok bound => bound
  | .error _ => w'

/-- Registers a job that uses a memory. -/
def register (w : Workshop) (t memory : Nat) (kind : JobKind)
    (job : Deed JobCommand JobCommand.Answer) : Except TrampolineError Workshop :=
  match (w.trampoline t).register kind ⟨memory, job⟩ with
  | .error e => .error e
  | .ok changed => .ok { w with trampolines := w.trampolines.setIfInBounds t changed }

/-- The workshop with another run of a runner. -/
def setRun (w : Workshop) (i : Nat) (r : Runner) (mode : RunMode)
    (s : StagedRun Placed.system) : Workshop where
  bench := s.world
  trampolines := w.trampolines.setIfInBounds r.trampoline s.trampoline
  runners := w.runners.setIfInBounds i
    { r with executed := true, course := some ⟨mode, s.performed, s.stage⟩ }

/-- Lets a runner begin to run its trampoline, which can be done once. -/
def launch (w : Workshop) (i : Nat) (r : Runner) (mode : RunMode) :
    Except TrampolineError Workshop :=
  if r.executed then .error .alreadyExecuted
  else .ok (w.setRun i r mode (.start Placed.system (w.trampoline r.trampoline) w.bench))

/-- The run of a runner under way. -/
def runOf (w : Workshop) (r : Runner) (c : Course) : StagedRun Placed.system :=
  ⟨⟨w.trampoline r.trampoline, w.bench, c.performed⟩, c.stage⟩

/-- One stride of the run of a runner. -/
def stride (w : Workshop) (i : Nat) (r : Runner) (c : Course) : Workshop :=
  w.setRun i r c.mode ((w.runOf r c).stride c.mode).2

/-- Runs the trampoline of a runner to the end, which can be done once. -/
def execute (w : Workshop) (i : Nat) (r : Runner) (mode : RunMode) :
    Except TrampolineError (Run.Outcome × Workshop) :=
  if r.executed then .error .alreadyExecuted
  else
    let ended := (Run.start (w.trampoline r.trampoline) w.bench).toEnd Placed.system mode
      (Run.acc_stepOf Placed.wellFounded_below mode _)
    .ok (ended.outcome, w.setRun i r mode ⟨ended, .polling⟩)

/-- Form of a trampoline. -/
def trampolineForm (w : Workshop) (t : Nat) : String := (w.trampoline t).view.form

/-- Form of a runner. -/
def runnerForm (w : Workshop) (r : Runner) : String :=
  Text.record "TrampolineRunner" [("trampoline", w.trampolineForm r.trampoline),
    ("memory", (w.bench.memory r.memory).form), ("executed", Text.truth r.executed)]

end Workshop

end PartyGraph
