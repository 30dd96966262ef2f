import Mathlib.Data.Nat.Init
import Mathlib.Data.Set.Defs
import PartyGraph.Proofs.Trampoline.Conservation
import PartyGraph.Trampoline.Workshop

/-!
# Rounds as a worklist

A run takes the jobs of a phase in rounds: all that wait are taken out at once, and what they
register waits apart until they are done. The plain way to do the same work has no rounds. It pops
the first job of the queue, performs it with the rest of the queue in place, and what the job
registers goes behind that rest (`Run.turn`).

The two differ in what a job finds in the queue of its own kind while it runs, and in nothing
else. A job cannot look into a queue, but the form of a trampoline tells how many actions wait. So
the comparison is about jobs that read no more than the phase (`Script.Unhurried`), as do all
those that they register (`JobSystem.Unhurried`).

## The simulation

Jobs that were put first in a queue stay first, whatever an unhurried script does
(`Script.Unhurried.run_putFirst`). So a round that is under way is the worklist with the rest of
the round put first, each job of the round is one turn, and a step of the run is as many turns as
the round has jobs, or one turn that passes to the next phase (`Run.step_eq_turns`).

## Main definitions

* `Run.turn`, `Run.turns`: the worklist.
* `Script.Unhurried`, `JobSystem.Unhurried`: jobs that do not look how many actions wait.
* `Run.RefinesWorklist`: what is compared.

## Main results

* `Run.refinesWorklist`: rounds refine the worklist.
-/

namespace PartyGraph

/-! ### Queues with jobs put first -/

namespace Trampoline

variable {J : Type}

/-- The trampoline with jobs put before those of a kind. -/
def putFirst (k : JobKind) (jobs : List J) (t : Trampoline J) : Trampoline J :=
  t.withQueue k (jobs ++ t.queue k)

theorem withQueue_withQueue (t : Trampoline J) (k : JobKind) (jobs jobs' : List J) :
    (t.withQueue k jobs).withQueue k jobs' = t.withQueue k jobs' := by
  cases k <;> rfl

theorem withQueue_comm (t : Trampoline J) {k k' : JobKind} (h : k ≠ k') (jobs jobs' : List J) :
    (t.withQueue k jobs).withQueue k' jobs' = (t.withQueue k' jobs').withQueue k jobs := by
  cases k <;> cases k' <;> first | rfl | exact absurd rfl h

@[simp] theorem withQueue_queue (t : Trampoline J) (k : JobKind) :
    t.withQueue k (t.queue k) = t := by
  cases k <;> rfl

@[simp] theorem putFirst_nil (k : JobKind) (t : Trampoline J) : t.putFirst k [] = t := by
  simp [putFirst]

@[simp] theorem phase_putFirst (k : JobKind) (jobs : List J) (t : Trampoline J) :
    (t.putFirst k jobs).phase = t.phase :=
  phase_withQueue ..

/-- A registration is answered in the same way when jobs were put first, and they stay first. -/
theorem register_putFirst (k : JobKind) (jobs : List J) (t : Trampoline J) (kind : JobKind)
    (job : J) :
    (t.putFirst k jobs).register kind job = (t.register kind job).map (putFirst k jobs) := by
  unfold register
  rw [phase_putFirst]
  split
  · by_cases hk : k = kind
    · subst hk
      simp [Except.map, putFirst, withQueue_withQueue]
    · simp only [Except.map, putFirst]
      rw [queue_withQueue_of_ne t (Ne.symm hk), queue_withQueue_of_ne t hk, withQueue_comm t hk]
  · rfl

/-- Putting the jobs of the round back gives the trampoline from which it was taken. -/
theorem putFirst_takeRound {t : Trampoline J} {k : JobKind} (h : t.phase.kind? = some k) :
    t.takeRound.2.putFirst k t.takeRound.1 = t := by
  simp [takeRound, h, putFirst, withQueue_withQueue]

end Trampoline

/-! ### Scripts that do not look how many actions wait -/

namespace Script

variable {J C W : Type} {A : C → Type} {answer : (c : C) → W → A c × W}

/-- Whether what a script does is the same however many actions it sees waiting. -/
def Unhurried : Script J C A → Prop
  | finish _ => True
  | register _ _ next => ∀ r, (next r).Unhurried
  | look next => (∀ v, (next v).Unhurried) ∧ ∀ v n, next { v with actions := n } = next v
  | ask _ next => ∀ a, (next a).Unhurried

/-- An unhurried script sees the same of a trampoline when jobs were put first. -/
theorem Unhurried.next_view {next : Trampoline.View → Script J C A}
    (h : (look next).Unhurried) (k : JobKind) (jobs : List J) (t : Trampoline J) :
    next (t.putFirst k jobs).view = next t.view := by
  rw [← h.2 (t.putFirst k jobs).view t.view.actions]
  cases k <;> rfl

/-- **Jobs that were put first stay first.** All else that an unhurried script does is the same
with them and without them. -/
theorem Unhurried.run_putFirst {s : Script J C A} (h : s.Unhurried) (k : JobKind) (jobs : List J)
    (t : Trampoline J) (w : W) :
    s.run answer (t.putFirst k jobs) w
      = { s.run answer t w with
          trampoline := (s.run answer t w).trampoline.putFirst k jobs } := by
  induction s generalizing t w with
  | finish e => rfl
  | register kind j next ih =>
    rw [run, run, Trampoline.register_putFirst]
    cases t.register kind j with
    | ok t' =>
      simp only [Except.map]
      rw [ih none (h none) t' w]
      rfl
    | error e =>
      simp only [Except.map]
      rw [ih (some e) (h (some e)) t w]
      rfl
  | look next ih =>
    rw [run, run, h.next_view]
    exact ih _ (h.1 _) t w
  | ask c next ih =>
    rw [run, run]
    exact ih _ (h _) t _

end Script

/-- Whether the jobs of a set are unhurried and register only jobs of the set. -/
structure JobSystem.Unhurried {J W : Type} (sys : JobSystem J W) (jobs : Set J) : Prop where
  unhurried : ∀ j ∈ jobs, (sys.script j).Unhurried
  closed : ∀ j ∈ jobs, ∀ k, sys.Below k j → k ∈ jobs

namespace Run

variable {J W : Type} {sys : JobSystem J W}

/-- Whether all jobs that wait belong to a set. -/
def Waits (jobs : Set J) (r : Run J W) : Prop := ∀ k, ∀ j ∈ r.trampoline.queue k, j ∈ jobs

/-! ### The worklist -/

/-- The first job of the queue is popped and performed with the rest in place. When there is
none, the run passes to the next phase. -/
def turn (sys : JobSystem J W) (r : Run J W) : Run J W :=
  match r.phase.kind? with
  | none => r.advance
  | some k =>
    match r.trampoline.queue k with
    | [] => r.advance
    | j :: rest => perform sys { r with trampoline := r.trampoline.withQueue k rest } j

/-- The worklist after a number of turns. -/
def turns (sys : JobSystem J W) : Nat → Run J W → Run J W
  | 0, r => r
  | n + 1, r => turns sys n (r.turn sys)

theorem turns_add (m n : Nat) (r : Run J W) :
    turns sys (m + n) r = turns sys n (turns sys m r) := by
  induction m generalizing r with
  | zero => rw [Nat.zero_add, turns]
  | succ m ih => rw [Nat.succ_add, turns, turns, ih]

/-- The run with jobs put before those of a kind. -/
def putFirst (k : JobKind) (jobs : List J) (r : Run J W) : Run J W :=
  { r with trampoline := r.trampoline.putFirst k jobs }

/-- Performing an unhurried job leaves jobs first that were put first. -/
theorem perform_putFirst {j : J} (h : (sys.script j).Unhurried) (k : JobKind) (jobs : List J)
    (r : Run J W) : (r.putFirst k jobs).perform sys j = (r.perform sys j).putFirst k jobs := by
  simp [perform, putFirst, phase, h.run_putFirst]

/-- With a job first in the queue of the phase, a turn performs it. -/
theorem turn_putFirst {k : JobKind} {j : J} (h : (sys.script j).Unhurried) (rest : List J)
    {r : Run J W} (hk : r.phase.kind? = some k) :
    (r.putFirst k (j :: rest)).turn sys = (r.perform sys j).putFirst k rest := by
  have hk' : (r.putFirst k (j :: rest)).phase.kind? = some k := by simpa [putFirst, phase] using hk
  rw [turn, hk']
  rw [← perform_putFirst h]
  simp [putFirst, Trampoline.putFirst, Trampoline.withQueue_withQueue]

/-- A round under way is the worklist with the rest of the round put first. -/
theorem turns_putFirst {k : JobKind} {js : List J} (h : ∀ j ∈ js, (sys.script j).Unhurried)
    {r : Run J W} (hk : r.phase.kind? = some k) :
    turns sys js.length (r.putFirst k js) = js.foldl (perform sys) r := by
  induction js generalizing r with
  | nil => simp [turns, putFirst]
  | cons j js ih =>
    rw [List.length_cons, turns, turn_putFirst (h j (by simp)) js hk]
    exact ih (fun i hi => h i (List.mem_cons_of_mem _ hi)) (by rwa [phase_perform])

/-- When no job waits for the phase, a turn is a step. -/
theorem turn_of_round_nil {r : Run J W} (h : r.round = []) : r.turn sys = r.advance := by
  rw [turn]
  split
  · rfl
  · next k hk =>
    rw [round, Trampoline.takeRound_fst _ hk] at h
    rw [h]

/-- **A step is as many turns as its round has jobs**, or one turn to the next phase. -/
theorem step_eq_turns {r : Run J W} (h : ∀ j ∈ r.round, (sys.script j).Unhurried) :
    r.step sys .all = turns sys (max 1 r.round.length) r := by
  by_cases hnil : r.round = []
  · rw [step_of_round_nil hnil, hnil]
    exact (turn_of_round_nil hnil).symm
  · obtain ⟨k, hk⟩ : ∃ k, r.phase.kind? = some k := by
      cases hp : r.phase.kind? with
      | none =>
        refine absurd ?_ hnil
        rw [phase] at hp
        simp [round, Trampoline.takeRound, hp]
      | some k => exact ⟨k, rfl⟩
    have back : ({ r with trampoline := r.trampoline.takeRound.2 } : Run J W).putFirst k r.round
        = r := by
      rw [putFirst, round, Trampoline.putFirst_takeRound hk]
    rw [step_of_round hnil, Nat.max_eq_right (List.length_pos_iff.mpr hnil)]
    rw [← turns_putFirst h (k := k) (by rwa [round_takeRound]), back]

/-! ### Runs of steps and runs of turns -/

section Unhurried

variable {jobs : Set J} {r : Run J W}

/-- The jobs that wait stay within the set. -/
theorem Waits.step (h : r.Waits jobs) (hsys : sys.Unhurried jobs) :
    (r.step sys .all).Waits jobs := by
  by_cases hnil : r.round = []
  · rw [step_of_round_nil hnil]
    exact fun k j hj => h k j (Trampoline.mem_queue_enter hj)
  · rw [step_of_round hnil, ← performRound_all]
    intro k j hj
    rcases mem_queue_performRound hj with hj | ⟨i, hi, hji⟩
    · exact h k j (Trampoline.mem_queue_takeRound hj)
    · obtain ⟨k', hi⟩ := Trampoline.mem_takeRound_fst hi
      exact hsys.closed i (h k' i hi) j hji

theorem Waits.unhurried_round (h : r.Waits jobs) (hsys : sys.Unhurried jobs) :
    ∀ j ∈ r.round, (sys.script j).Unhurried := by
  intro j hj
  obtain ⟨k, hj⟩ := Trampoline.mem_takeRound_fst hj
  exact hsys.unhurried j (h k j hj)

/-- Every number of steps is some number of turns, at least as many. -/
theorem Waits.steps_eq_turns (h : r.Waits jobs) (hsys : sys.Unhurried jobs) (n : Nat) :
    ∃ m, n ≤ m ∧ steps sys .all n r = turns sys m r := by
  induction n generalizing r with
  | zero => exact ⟨0, Nat.le_refl _, rfl⟩
  | succ n ih =>
    obtain ⟨m, hnm, hm⟩ := ih (h.step hsys)
    refine ⟨max 1 r.round.length + m, by omega, ?_⟩
    rw [steps, hm, step_eq_turns (h.unhurried_round hsys), turns_add]

end Unhurried

variable (sys) in
/-- A turn passes to the next phase, or performs the first job of the queue. -/
theorem turn_cases (r : Run J W) :
    r.turn sys = r.advance ∨
      ∃ k j rest, r.phase.kind? = some k ∧ r.trampoline.queue k = j :: rest ∧
        r.turn sys = perform sys { r with trampoline := r.trampoline.withQueue k rest } j := by
  rw [turn]
  split
  · exact .inl rfl
  · next k hk =>
    split
    · exact .inl rfl
    · next j rest hq => exact .inr ⟨k, j, rest, hk, hq, rfl⟩

/-- A turn only adds to the log. -/
theorem prefix_performed_turn (r : Run J W) : r.performed <+: (r.turn sys).performed := by
  obtain h | ⟨k, j, rest, -, -, h⟩ := turn_cases sys r
  · rw [h]
    exact List.prefix_rfl
  · rw [h]
    exact List.prefix_append ..

theorem prefix_performed_turns {m n : Nat} (h : m ≤ n) (r : Run J W) :
    (turns sys m r).performed <+: (turns sys n r).performed := by
  induction n, h using Nat.le_induction with
  | base => exact List.prefix_rfl
  | succ n _ ih =>
    rw [turns_add n 1]
    exact ih.trans (prefix_performed_turn _)

/-! ### The end of the worklist -/

/-- Whether no job is left behind when the run is over. -/
def LeavesNone (r : Run J W) : Prop := r.isDone = true → ∀ k, r.trampoline.queue k = []

theorem LeavesNone.turn (r : Run J W) : (r.turn sys).LeavesNone := by
  obtain h | ⟨k, j, rest, hk, -, h⟩ := turn_cases sys r
  · rw [h]
    exact queue_advance_of_isDone
  · -- A job is performed in a phase that has work of its own, so this is not the end.
    intro hd
    have hp := phase_of_isDone hd
    rw [h, phase_perform] at hp
    rw [show r.phase = .completed by simpa [phase] using hp] at hk
    cases hk

theorem LeavesNone.turns {r : Run J W} (h : r.LeavesNone) (m : Nat) :
    (turns sys m r).LeavesNone := by
  cases m with
  | zero => exact h
  | succ m =>
    rw [turns_add m 1]
    exact LeavesNone.turn _

/-- A run that is over takes no further turn. -/
theorem LeavesNone.turns_eq {r : Run J W} (h : r.LeavesNone) (hd : r.isDone = true) (m : Nat) :
    Run.turns sys m r = r := by
  have hturn : r.turn sys = r := by
    rw [Run.turn, phase_of_isDone hd]
    exact advance_of_isDone hd (h hd)
  induction m with
  | zero => rfl
  | succ m ih => rw [Run.turns, hturn, ih]

/-! ### Rounds refine the worklist -/

variable (sys) in
/-- What a fold of jobs adds to a run. -/
theorem exists_entries_foldl (js : List J) (r : Run J W) :
    ∃ es : List (Performed J), (js.foldl (perform sys) r).performed = r.performed ++ es ∧
      es.map (·.job) = js ∧ (∀ e ∈ es, e.phase = r.phase) ∧
      ∀ k, (js.foldl (perform sys) r).trampoline.queue k
        = r.trampoline.queue k ++ es.flatMap (Performed.accepted k) := by
  induction js generalizing r with
  | nil => exact ⟨[], by simp, rfl, by simp, by simp⟩
  | cons j js ih =>
    obtain ⟨es, hes, hjobs, hphase, hqueue⟩ := ih (r.perform sys j)
    refine ⟨r.entry sys j :: es, ?_, ?_, ?_, ?_⟩
    · rw [List.foldl_cons, hes, performed_perform, List.append_assoc, List.singleton_append]
    · rw [List.map_cons, hjobs]
      rfl
    · intro e he
      rcases List.mem_cons.mp he with rfl | he
      · rfl
      · rw [hphase e he, phase_perform]
    · intro k
      rw [List.foldl_cons, hqueue k, queue_perform, List.flatMap_cons, List.append_assoc]

/-- What one round does, and which round comes next: each job of the round is performed once, in
order, and the next round are the jobs of the kind that were accepted meanwhile, in order. -/
structure Consecutive (sys : JobSystem J W) (r : Run J W) (k : JobKind) : Prop where
  phase : (r.step sys .all).phase = r.phase
  entries : ∃ es : List (Performed J),
    (r.step sys .all).performed = r.performed ++ es ∧ es.map (·.job) = r.round ∧
      (∀ e ∈ es, e.phase = r.phase) ∧
      (r.step sys .all).round = es.flatMap (Performed.accepted k)

theorem consecutive {r : Run J W} {k : JobKind} (hk : r.phase.kind? = some k)
    (hround : r.round ≠ []) : Consecutive sys r k := by
  have hphase : (r.step sys .all).phase = r.phase := by
    rw [step_of_round hround, ← performRound_all, phase_performRound, round_takeRound]
  obtain ⟨es, hes, hjobs, hin, hqueue⟩ := exists_entries_foldl sys r.round
    { r with trampoline := r.trampoline.takeRound.2 }
  rw [← step_of_round hround] at hes hqueue
  refine ⟨hphase, es, hes, hjobs, fun e he => (hin e he).trans (round_takeRound r), ?_⟩
  rw [Run.round, Trampoline.takeRound_fst _ (k := k) (by rwa [← hphase] at hk), hqueue k,
    Trampoline.queue_takeRound_same _ hk, List.nil_append]

/-- What the rounds of a run have to do with the worklist that begins as the run does. Where runs
are equal, they have performed the same jobs in the same order with the same failures and the same
registrations accepted and refused, and they have the same queues and the same world. -/
structure RefinesWorklist (sys : JobSystem J W) (r : Run J W) : Prop where
  /-- After every step the run is where the worklist is after some number of turns. -/
  steps : ∀ n, ∃ m, n ≤ m ∧ steps sys .all n r = turns sys m r
  /-- What the worklist performs, rounds perform in the same order. -/
  turns : ∀ m, ∃ n, (turns sys m r).performed <+: (Run.steps sys .all n r).performed
  /-- Rounds and worklist come to the same ends. -/
  ends : ∀ ended : Run J W, ended.isDone = true →
    ((∃ n, Run.steps sys .all n r = ended) ↔ ∃ m, Run.turns sys m r = ended)
  /-- A run to its end, when it comes to one, is a run of the worklist to its end. -/
  toEnd : ∀ h : Acc (StepOf sys .all) r,
    (r.toEnd sys .all h).isDone = true ∧ ∃ m, Run.turns sys m r = r.toEnd sys .all h
  /-- What is accepted for the phase in one round is performed in the next. -/
  consecutive : ∀ n k, (Run.steps sys .all n r).phase.kind? = some k →
    (Run.steps sys .all n r).round ≠ [] → Consecutive sys (Run.steps sys .all n r) k

/-- **Rounds refine a worklist.** Let the jobs waiting on a trampoline, and all jobs that these
may register in turn, do whatever they like except to look how many actions wait. Then a run that
performs all its actions is one queue for each phase that is worked through from its head. -/
theorem refinesWorklist {jobs : Set J} (hsys : sys.Unhurried jobs) (t : Trampoline J) (w : W)
    (hphase : t.phase = .actions) (hjobs : ∀ k, ∀ j ∈ t.queue k, j ∈ jobs) :
    RefinesWorklist sys (start t w) := by
  have hwaits : (start t w : Run J W).Waits jobs := hjobs
  have hleaves : (start t w : Run J W).LeavesNone := by
    intro hd
    rw [show t.phase = .completed from phase_of_isDone hd] at hphase
    cases hphase
  have hsteps := hwaits.steps_eq_turns hsys
  have hends : ∀ n, ∃ m, turns sys m (start t w) = Run.steps sys .all n (start t w) := fun n =>
    let ⟨m, _, hm⟩ := hsteps n
    ⟨m, hm.symm⟩
  constructor
  case steps => exact hsteps
  case turns =>
    intro m
    obtain ⟨m', hle, hm'⟩ := hsteps m
    exact ⟨m, hm' ▸ prefix_performed_turns hle _⟩
  case ends =>
    intro ended hd
    constructor
    · rintro ⟨n, rfl⟩
      exact hends n
    · rintro ⟨m, rfl⟩
      -- After as many steps the run is at least as far, and the worklist goes no further.
      obtain ⟨m', hle, hm'⟩ := hsteps m
      refine ⟨m, ?_⟩
      rw [hm', ← Nat.add_sub_cancel' hle, turns_add, (hleaves.turns m).turns_eq hd]
  case toEnd =>
    intro h
    obtain ⟨n, hn⟩ := toEnd_eq_steps h
    refine ⟨(toEnd_induction (P := fun _ => True) (fun _ _ _ => trivial) h trivial).2, ?_⟩
    rw [hn]
    exact hends n
  case consecutive => exact fun n k => consecutive

/-! #### A job that registers another and panics -/

/-- A job that notes a line and declines. -/
def noting : Deed JobCommand JobCommand.Answer :=
  .mk (.ask (.note "noted") fun _ => .finish .declined)

/-- A job that registers `noting` for the phase in which it finds the run, and then panics. -/
def panicking : Deed JobCommand JobCommand.Answer :=
  .mk (.look fun v => .register (if v.phase = .actions then .action else .closing) noting
    fun _ => .finish (.panicked .other))

/-- The two jobs, with a memory. -/
def twoJobs : Set Placed := {p | p = ⟨0, panicking⟩ ∨ p = ⟨0, noting⟩}

theorem unhurried_twoJobs : Placed.system.Unhurried twoJobs where
  unhurried := by
    rintro j (rfl | rfl)
    · exact ⟨fun _ _ => trivial, fun _ _ => rfl⟩
    · exact fun _ => trivial
  closed := by
    rintro j hj k hk
    obtain ⟨d, hd, rfl⟩ := Script.mentions_map hk
    rcases hj with rfl | rfl
    · rcases hd with _ | _ | ⟨v, _ | ⟨r, ⟨⟩⟩⟩ | _
      exact .inr rfl
    · rcases hd with _ | _ | _ | ⟨a, ⟨⟩⟩

theorem refinesWorklist_of_panic :
    Placed.system.Unhurried twoJobs ∧
      RefinesWorklist Placed.system
        (start ⟨.actions, true, [⟨0, panicking⟩, ⟨0, noting⟩], [], [], [⟨0, panicking⟩]⟩
          ⟨#[Memory.empty], []⟩) := by
  refine ⟨unhurried_twoJobs, refinesWorklist unhurried_twoJobs _ _ rfl ?_⟩
  rintro (_ | _ | _ | _) j hj
  · have hj : j = ⟨0, panicking⟩ ∨ j = ⟨0, noting⟩ := by simpa [Trampoline.queue] using hj
    exact hj
  · cases hj
  · cases hj
  · exact .inl (List.mem_singleton.mp hj)

end Run

end PartyGraph
