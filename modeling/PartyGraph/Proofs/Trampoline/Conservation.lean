import PartyGraph.Proofs.Trampoline.Rounds

/-!
# What becomes of a registration

The log of a run has, for every job performed, the registrations that it tried and whether each
was refused. That is enough to say what is in the queues: a registration is accepted exactly if
the phase accepts its kind, and a queue grows by the jobs accepted for it and by nothing else
(`Run.queue_perform`). Jobs that are accepted but not performed can thus be counted without
looking into the queues while jobs run.

## Main definitions

* `Registration.accepted`: the jobs of a kind among registrations that were accepted.
* `Run.accepted`, `Run.performedIn`: the jobs accepted for a kind, and those performed in a phase.
* `JobKind.phase`: the phase in which a kind of work runs.

## Main results

* `Script.queue_run`: a script appends to each queue the jobs accepted for it.
* `Script.refusal_run`: a registration is refused exactly if the phase does not accept its kind.
-/

namespace PartyGraph

/-- The phase in which a kind of work runs. -/
def JobKind.phase : JobKind → Phase
  | action => .actions
  | success => .success
  | error => .error
  | closing => .closing

theorem Phase.kind?_eq_some {p : Phase} {k : JobKind} : p.kind? = some k ↔ p = k.phase := by
  cases p <;> cases k <;> simp [Phase.kind?, JobKind.phase]

theorem JobKind.phase_injective {k k' : JobKind} : k.phase = k'.phase ↔ k = k' := by
  cases k <;> cases k' <;> simp [JobKind.phase]

/-! ### Registrations -/

section Registrations

variable {J : Type}

/-- The jobs of a kind that were registered and not refused, in order. -/
def Registration.accepted (k : JobKind) (gs : List (Registration J)) : List J :=
  gs.filterMap fun g => if g.kind = k ∧ g.isAccepted = true then some g.job else none

/-- What a phase says to the registration of a kind of work. -/
def Phase.refusal (p : Phase) (k : JobKind) : Option TrampolineError :=
  if p.accepts k then none else some (.phaseViolation k p)

theorem Trampoline.register_eq_ok {t t' : Trampoline J} {k : JobKind} {j : J}
    (h : t.register k j = .ok t') :
    t.phase.refusal k = none ∧ t' = t.withQueue k (t.queue k ++ [j]) := by
  rw [Trampoline.register] at h
  split at h
  · next ha => exact ⟨if_pos ha, (Except.ok.inj h).symm⟩
  · cases h

theorem Trampoline.register_eq_error {t : Trampoline J} {k : JobKind} {j : J}
    {e : TrampolineError} (h : t.register k j = .error e) :
    t.phase.refusal k = some e := by
  rw [Trampoline.register] at h
  split at h
  · cases h
  · next ha => rw [← Except.error.inj h, Phase.refusal, if_neg ha]

end Registrations

namespace Trampoline

variable {J : Type}

@[simp] theorem claimed_withQueue (t : Trampoline J) (k : JobKind) (jobs : List J) :
    (t.withQueue k jobs).claimed = t.claimed := by
  cases k <;> rfl

@[simp] theorem claimed_enter (t : Trampoline J) (p : Phase) :
    (t.enter p).claimed = t.claimed := by
  cases p <;> rfl

/-- Passing to a phase leaves the queues of what it accepts. -/
theorem queue_enter_of_accepts (t : Trampoline J) {p : Phase} {k : JobKind}
    (h : p.accepts k = true) : (t.enter p).queue k = t.queue k := by
  cases p <;> cases k <;> first | rfl | cases h

@[simp] theorem claimed_takeRound (t : Trampoline J) : t.takeRound.2.claimed = t.claimed := by
  rw [takeRound]
  split <;> simp

end Trampoline

/-! ### Scripts -/

namespace Script

variable {J C W : Type} {A : C → Type} {answer : (c : C) → W → A c × W}

/-- A script appends to each queue the jobs that it registers and that are accepted. -/
theorem queue_run (s : Script J C A) (t : Trampoline J) (w : W) (k : JobKind) :
    (s.run answer t w).trampoline.queue k
      = t.queue k ++ Registration.accepted k (s.run answer t w).registrations := by
  induction s generalizing t w with
  | finish e => simp [run, Registration.accepted]
  | register kind j next ih =>
    rw [run]
    split
    · next t' ht =>
      rw [Result.trampoline_after, ih, queue_register ht, List.append_assoc]
      by_cases hk : k = kind
      · subst hk
        simp [Result.after, Registration.accepted, Registration.isAccepted]
      · simp [Result.after, Registration.accepted, hk, Ne.symm hk]
    · rw [Result.trampoline_after, ih]
      simp [Result.after, Registration.accepted, Registration.isAccepted]
  | look next ih => exact ih _ t w
  | ask c next ih => exact ih _ t _

/-- Each registration of a script is answered by what the phase says to its kind. -/
theorem refusal_run (s : Script J C A) (t : Trampoline J) (w : W) :
    ∀ g ∈ (s.run answer t w).registrations, g.refusal = t.phase.refusal g.kind := by
  induction s generalizing t w with
  | finish e => exact fun g hg => absurd hg List.not_mem_nil
  | register kind j next ih =>
    rw [run]
    split
    · next t' ht =>
      intro g hg
      rcases List.mem_cons.mp hg with rfl | hg
      · exact (Trampoline.register_eq_ok ht).1.symm
      · rw [ih _ t' w g hg, phase_register ht]
    · next e he =>
      intro g hg
      rcases List.mem_cons.mp hg with rfl | hg
      · exact (Trampoline.register_eq_error he).symm
      · exact ih _ t w g hg
  | look next ih => exact ih _ t w
  | ask c next ih => exact ih _ t _

end Script

/-! ### Runs -/

/-- The jobs of a kind that a performed job registered and that were accepted. -/
def Performed.accepted {J : Type} (k : JobKind) (e : Performed J) : List J :=
  Registration.accepted k e.registrations

/-- What a phase does not accept is not accepted from a job performed in it. -/
theorem Performed.accepted_eq_nil {J : Type} {k : JobKind} {e : Performed J}
    (h : ∀ g ∈ e.registrations, g.refusal = e.phase.refusal g.kind)
    (hk : e.phase.accepts k = false) : e.accepted k = [] := by
  refine List.filterMap_eq_nil_iff.mpr fun g hg => if_neg ?_
  rintro ⟨rfl, ha⟩
  rw [Registration.isAccepted, h g hg, Phase.refusal, hk] at ha
  cases ha

namespace Run

variable {J W : Type} {sys : JobSystem J W} {mode : RunMode}

/-- The jobs of a kind registered by the jobs performed so far and accepted, in order. -/
def accepted (r : Run J W) (k : JobKind) : List J := r.performed.flatMap (Performed.accepted k)

/-- The jobs performed in a phase, in order. -/
def performedIn (r : Run J W) (p : Phase) : List J :=
  (r.performed.filter (·.phase = p)).map (·.job)

/-- The entry that performing a job adds to the log. -/
def entry (sys : JobSystem J W) (r : Run J W) (j : J) : Performed J :=
  let result := (sys.script j).run sys.answer r.trampoline r.world
  ⟨r.phase, j, result.ending.failure?, result.registrations⟩

theorem performed_perform (r : Run J W) (j : J) :
    (r.perform sys j).performed = r.performed ++ [r.entry sys j] := rfl

/-- Performing a job appends to each queue the jobs that it registers and that are accepted. -/
theorem queue_perform (r : Run J W) (j : J) (k : JobKind) :
    (r.perform sys j).trampoline.queue k = r.trampoline.queue k ++ (r.entry sys j).accepted k :=
  Script.queue_run ..

theorem refusal_entry (r : Run J W) (j : J) :
    ∀ g ∈ (r.entry sys j).registrations, g.refusal = r.phase.refusal g.kind :=
  Script.refusal_run _ _ _

theorem accepted_perform (r : Run J W) (j : J) (k : JobKind) :
    (r.perform sys j).accepted k = r.accepted k ++ (r.entry sys j).accepted k := by
  simp [accepted, performed_perform]

theorem performedIn_concat {r r' : Run J W} {e : Performed J}
    (h : r'.performed = r.performed ++ [e]) (p : Phase) :
    r'.performedIn p = r.performedIn p ++ if e.phase = p then [e.job] else [] := by
  by_cases hp : e.phase = p <;> simp [performedIn, h, hp]

theorem performedIn_perform (r : Run J W) (j : J) (p : Phase) :
    (r.perform sys j).performedIn p = r.performedIn p ++ if r.phase = p then [j] else [] :=
  performedIn_concat (performed_perform r j) p

/-- What every step keeps, every number of steps keeps. -/
theorem steps_induction {P : Run J W → Prop} (keeps : ∀ r, P r → P (r.step sys mode)) (n : Nat)
    {r : Run J W} (hr : P r) : P (steps sys mode n r) := by
  induction n generalizing r with
  | zero => exact hr
  | succ n ih => exact ih (keeps r hr)

theorem phase_of_isDone {r : Run J W} (h : r.isDone = true) : r.phase = .completed :=
  of_decide_eq_true h

/-- Nothing is left of a run that is over and has left no job behind. -/
theorem advance_of_isDone {r : Run J W} (h : r.isDone = true)
    (hq : ∀ k, r.trampoline.queue k = []) : r.advance = r := by
  obtain ⟨⟨phase, claimed, actions, success, error, closing⟩, world, performed⟩ := r
  obtain rfl : phase = .completed := phase_of_isDone h
  obtain rfl : actions = [] := hq .action
  obtain rfl : success = [] := hq .success
  obtain rfl : error = [] := hq .error
  obtain rfl : closing = [] := hq .closing
  rfl

/-- When the passage to the next phase ends the run, no job is left behind. -/
theorem queue_advance_of_isDone {r : Run J W} (h : r.advance.isDone = true) (k : JobKind) :
    r.advance.trampoline.queue k = [] := by
  have hp : r.nextPhase = .completed := by simpa [isDone] using h
  rw [advance, hp]
  cases k <;> rfl

/-- A run that comes to its end does so after some number of steps. -/
theorem toEnd_eq_steps {r : Run J W} (h : Acc (StepOf sys mode) r) :
    ∃ n, r.toEnd sys mode h = steps sys mode n r := by
  induction h with
  | intro r hacc ih =>
    rw [toEnd_eq]
    split
    · exact ⟨0, rfl⟩
    · next hd =>
      obtain ⟨n, hn⟩ := ih (r.step sys mode) ⟨by simpa using hd, rfl⟩
      exact ⟨n + 1, hn⟩

end Run

end PartyGraph
