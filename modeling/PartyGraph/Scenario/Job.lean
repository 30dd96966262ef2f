import PartyGraph.Trampoline.Deed

/-!
# Jobs written as data

A scenario tells what a job does by a list of effects. When it runs, such a job notes its name,
goes through the effects and ends as it is told to.

## Main definitions

* `ScriptedJob`, `JobEffect`: the data.
* `ScriptedJob.deed`: the job that they describe.
-/

namespace PartyGraph

mutual

/-- A job: how it is registered, what it does, and how it ends. A gentle job tells no more than
whether it succeeded. -/
inductive ScriptedJob where
  | mk (kind : JobKind) (gentle : Bool) (name : String) (effects : List JobEffect)
      (ending : Ending)

/-- A single thing that a job does. -/
inductive JobEffect where
  /-- Registers a job and notes a refusal. -/
  | register (job : ScriptedJob)
  /-- Registers a job and fails when it is refused. -/
  | require (job : ScriptedJob)
  /-- Performs an operation on the memory and notes the answer. -/
  | memory (request : Memory.Request)
  /-- Notes a line. -/
  | note (line : String)
  /-- Notes the phase. -/
  | phase
  /-- Notes the form of the trampoline. -/
  | form
  /-- Registers the job itself once more, with the number of all its repetitions one less. -/
  | repeatJob (times : Nat)

end

namespace ScriptedJob

instance : Inhabited ScriptedJob := ⟨mk .action false "" [] .succeeded⟩

/-- How the job is registered. -/
def kind : ScriptedJob → JobKind
  | mk kind _ _ _ _ => kind

/-- The name of the job. -/
def name : ScriptedJob → String
  | mk _ _ name _ _ => name

end ScriptedJob

/-- A script over memory, log and trampoline. -/
abbrev JobScript := Script (Deed JobCommand JobCommand.Answer) JobCommand JobCommand.Answer

/-- A deed over memory, log and trampoline. -/
abbrev JobDeed := Deed JobCommand JobCommand.Answer

namespace ScriptedJob

/-- Notes a line and goes on. -/
def noting (line : String) (next : Unit → JobScript) : JobScript := .ask (.note line) next

/-- Registers a job, notes a refusal, and goes on. -/
def registering (kind : JobKind) (name : String) (job : JobDeed) (next : Unit → JobScript) :
    JobScript :=
  .register kind job fun
    | none => next ()
    | some e => noting ("refused " ++ name ++ ": " ++ e.message) next

/-- Performs an operation on the memory, notes the answer, and goes on. -/
def remembering (request : Memory.Request) (next : Unit → JobScript) : JobScript :=
  .ask .fetch fun m =>
    let (a, m') := m.perform request
    .ask (.store m') fun _ => noting ("mem " ++ a.note) next

/-- The job that a list of effects belongs to. -/
structure Self where
  kind : JobKind
  gentle : Bool
  name : String
  ending : Ending
  /-- What a repetition with a number registers, if anything. -/
  repeated : Nat → Option JobDeed

/-- How the job ends when it cannot do without a job that was refused. -/
def Self.refusal (self : Self) (e : TrampolineError) : Ending :=
  let failed := Ending.failed (.ofTrampoline e)
  if self.gentle then failed.gentle else failed

/-- The deed for `n` further repetitions, where `build` makes the deed from the one that its
repetitions register, if any. -/
def again (build : Option JobDeed → JobDeed) : Nat → JobDeed
  | 0 => build none
  | n + 1 => build (some (again build n))

mutual

/-- The job that the data describe. -/
def deed : ScriptedJob → JobDeed
  | mk kind gentle name effects ending =>
    let last := if gentle then ending.gentle else ending
    let build (repeated : Nat → Option JobDeed) : JobDeed :=
      .mk (noting ("run " ++ name) fun _ => script ⟨kind, gentle, name, last, repeated⟩ effects)
    build fun
      | 0 => none
      | n + 1 => some (again (fun r => build fun _ => r) n)

/-- The effects in order, and then the end. -/
def script (self : Self) : List JobEffect → JobScript
  | [] => .finish self.ending
  | .register job :: rest => registering job.kind job.name (deed job) fun _ => script self rest
  | .require job :: rest =>
    .register job.kind (deed job) fun
      | none => script self rest
      | some e => .finish (self.refusal e)
  | .memory request :: rest => remembering request fun _ => script self rest
  | .note line :: rest => noting line fun _ => script self rest
  | .phase :: rest =>
    .look fun v => noting ("phase " ++ v.phase.text) fun _ => script self rest
  | .form :: rest => .look fun v => noting v.form fun _ => script self rest
  | .repeatJob times :: rest =>
    match self.repeated times with
    | none => script self rest
    | some job => registering self.kind self.name job fun _ => script self rest

end

end ScriptedJob

end PartyGraph
