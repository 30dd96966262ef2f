import PartyGraph.Trampoline.Run

/-!
# Strides of a run

Steps are what a run consists of as long as nobody else is there. But whoever has a trampoline may
register on it at any time, also while it runs, and its lock is held for one operation only: to
take the jobs of a round, to register a job, to look at the trampoline, or to enter a phase. A
stride is what a run does at once, and others may come between two of them.

In particular, a run that has found no job to take is still in the phase that it will leave, and
what it does next, having let go of the lock in between, is to enter another.

## Main definitions

* `RunStage`: where a run is between two strides.
* `StagedRun`: a run and its stage.
* `StagedRun.stride`: what a run does at once.
-/

namespace PartyGraph

/-- Registers a job if the phase accepts its kind, and tells whether it did. -/
def Trampoline.attempt {J : Type} (t : Trampoline J) (kind : JobKind) (job : J) :
    Registration J × Trampoline J :=
  match t.register kind job with
  | .ok t' => (⟨kind, job, none⟩, t')
  | .error e => (⟨kind, job, some e⟩, t)

variable {J W : Type}

/-- Where a run is between two strides. -/
inductive RunStage (sys : JobSystem J W) where
  /-- It is going to take a round. -/
  | polling
  /-- It is at a job that has tried some registrations and has a script left; `rest` is what
  follows in the round. -/
  | performing (job : J) (script : Script J sys.Command sys.Answer)
    (tried : List (Registration J)) (rest : List J)
  /-- It is going to enter the next phase. -/
  | leaving

namespace RunStage

variable {sys : JobSystem J W}

/-- The stage of a run that has jobs to perform before it takes another round. -/
def ofRound : List J → RunStage sys
  | [] => polling
  | j :: rest => performing j (sys.script j) [] rest

/-- Whether the next phase is going to be entered. -/
def isLeaving : RunStage sys → Bool
  | leaving => true
  | _ => false

end RunStage

/-- A run under way and its stage. -/
structure StagedRun (sys : JobSystem J W) extends Run J W where
  stage : RunStage sys

namespace StagedRun

variable {sys : JobSystem J W}

variable (sys) in
/-- A run before its first stride. -/
def start (t : Trampoline J) (w : W) : StagedRun sys := ⟨Run.start t w, .polling⟩

/-- Notes that a job was performed, and turns to the rest of the round unless this is given up. -/
def conclude (mode : RunMode) (s : StagedRun sys) (e : Performed J) (rest : List J) :
    StagedRun sys :=
  let r : Run J W := { s.toRun with performed := s.performed ++ [e] }
  ⟨r, if r.halts mode && r.failedIn .actions then .leaving else .ofRound rest⟩

/-- What a run does at once, with the registration that it tries if it does. -/
def stride (mode : RunMode) (s : StagedRun sys) : Option (Registration J) × StagedRun sys :=
  if s.isDone then (none, s) else
  match s.stage with
  | .polling =>
    match s.trampoline.takeRound with
    | ([], _) => (none, { s with stage := .leaving })
    | (jobs, t) => (none, { s with trampoline := t, stage := .ofRound jobs })
  | .performing j (.finish e) tried rest =>
    (none, s.conclude mode ⟨s.phase, j, e.failure?, tried⟩ rest)
  | .performing j (.register kind k next) tried rest =>
    let (g, t) := s.trampoline.attempt kind k
    (some g, { s with
      trampoline := t, stage := .performing j (next g.refusal) (tried ++ [g]) rest })
  | .performing j (.look next) tried rest =>
    (none, { s with stage := .performing j (next s.trampoline.view) tried rest })
  | .performing j (.ask c next) tried rest =>
    let (a, w) := sys.answer c s.world
    (none, { s with world := w, stage := .performing j (next a) tried rest })
  | .leaving => (none, ⟨s.advance, .polling⟩)

/-- Registers a job from outside. -/
def register (s : StagedRun sys) (kind : JobKind) (job : J) :
    Option (Registration J) × StagedRun sys :=
  let (g, t) := s.trampoline.attempt kind job
  (some g, { s with trampoline := t })

end StagedRun

end PartyGraph
