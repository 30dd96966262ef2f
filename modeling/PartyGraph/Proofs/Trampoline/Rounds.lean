import PartyGraph.Trampoline.Run

/-!
# What the rounds of a run keep

A run is a fold of jobs over a trampoline and a world, and almost everything that is proved of a
run is proved job by job. This module has the two inductions that this takes: over a script, for
what one job does to the queues and to the world, and over a run to its end, for what every round
keeps.

A run that performs all of its jobs has no early exit, so a round is a plain fold
(`performRound_all`), and a step is a round or, when there is nothing to perform, a change of phase
(`step_of_round_nil`, `step_of_round`).

## Main definitions

* `Script.Within`: the jobs that a script may register and the commands that it may give.

## Main results

* `Script.Within.queue`, `Script.Within.world`: the effect of such a script.
* `Run.toEnd_induction`: what every step keeps holds at the end.
-/

namespace PartyGraph

/-! ### Scripts -/

namespace Script

variable {J C W : Type} {A : C → Type}

/-- Whether a script registers only jobs that `job` holds of and gives only commands that `command`
holds of, whatever it is answered. -/
def Within (job : JobKind → J → Prop) (command : C → Prop) : Script J C A → Prop
  | finish _ => True
  | register kind j next => job kind j ∧ ∀ r, (next r).Within job command
  | look next => ∀ v, (next v).Within job command
  | ask c next => command c ∧ ∀ a, (next a).Within job command

variable {job : JobKind → J → Prop} {command : C → Prop} {answer : (c : C) → W → A c × W}

theorem queue_register {t t' : Trampoline J} {kind : JobKind} {j : J}
    (h : t.register kind j = .ok t') (k : JobKind) :
    t'.queue k = t.queue k ++ if k = kind then [j] else [] := by
  rw [Trampoline.register] at h
  split at h
  · cases h
    by_cases hk : k = kind
    · subst hk
      simp
    · simp [hk, Trampoline.queue_withQueue_of_ne t hk]
  · cases h

/-- A script puts jobs at the end of queues, and only such jobs as it is allowed to. -/
theorem Within.queue {s : Script J C A} (h : s.Within job command) (t : Trampoline J) (w : W)
    (k : JobKind) :
    ∃ new, (s.run answer t w).trampoline.queue k = t.queue k ++ new ∧ ∀ j ∈ new, job k j := by
  induction s generalizing t w with
  | finish e => exact ⟨[], by simp [run], by simp⟩
  | register kind j next ih =>
    obtain ⟨hj, hnext⟩ := h
    rw [run]
    split
    · next t' ht =>
      obtain ⟨new, hnew, hall⟩ := ih _ (hnext none) t' w
      refine ⟨(if k = kind then [j] else []) ++ new, ?_, ?_⟩
      · rw [Result.trampoline_after, hnew, queue_register ht, List.append_assoc]
      · intro i hi
        rcases List.mem_append.mp hi with hi | hi
        · split at hi
          · next hk =>
            rw [List.mem_singleton.mp hi, hk]
            exact hj
          · cases hi
        · exact hall i hi
    · next e _ => exact ih _ (hnext (some e)) t w
  | look next ih => exact ih _ (h _) t w
  | ask c next ih => exact ih _ (h.2 _) t _

/-- What every allowed command keeps of the world, the script keeps. -/
theorem Within.world {s : Script J C A} (h : s.Within job command) {I : W → Prop}
    (keeps : ∀ c, command c → ∀ w, I w → I (answer c w).2) (t : Trampoline J) {w : W} (hw : I w) :
    I (s.run answer t w).world := by
  induction s generalizing t w with
  | finish e => exact hw
  | register kind j next ih =>
    rw [run]
    split
    · exact ih _ (h.2 none) _ hw
    · next e _ => exact ih _ (h.2 (some e)) _ hw
  | look next ih => exact ih _ (h _) t hw
  | ask c next ih => exact ih _ (h.2 _) t (keeps c h.1 w hw)

/-- More may be allowed to a script than it needs. -/
theorem Within.mono {job' : JobKind → J → Prop} {command' : C → Prop} {s : Script J C A}
    (h : s.Within job command) (hj : ∀ k j, job k j → job' k j)
    (hc : ∀ c, command c → command' c) : s.Within job' command' := by
  induction s with
  | finish e => trivial
  | register kind j next ih => exact ⟨hj _ _ h.1, fun r => ih r (h.2 r)⟩
  | look next ih => exact fun v => ih v (h v)
  | ask c next ih => exact ⟨hc _ h.1, fun a => ih a (h.2 a)⟩

/-- Commands and jobs of another script may be allowed for by their counterparts. -/
theorem within_map {K D : Type} {B : D → Type} {ofJob : J → K} {ofCommand : C → D}
    {back : (c : C) → B (ofCommand c) → A c} {jobs : JobKind → K → Prop} {commands : D → Prop}
    (hj : ∀ k j, jobs k (ofJob j)) (hc : ∀ c, commands (ofCommand c)) (s : Script J C A) :
    (s.map ofJob ofCommand back).Within jobs commands := by
  induction s with
  | finish e => trivial
  | register kind j next ih => exact ⟨hj _ _, fun r => ih r⟩
  | look next ih => exact fun v => ih v
  | ask c next ih => exact ⟨hc _, fun a => ih _⟩

end Script

/-! ### Trampolines -/

namespace Trampoline

variable {J : Type}

/-- The jobs of a round are those queued for the phase. -/
theorem takeRound_fst (t : Trampoline J) {k : JobKind} (h : t.phase.kind? = some k) :
    t.takeRound.1 = t.queue k := by
  simp [takeRound, h]

theorem mem_takeRound_fst {t : Trampoline J} {j : J} (h : j ∈ t.takeRound.1) :
    ∃ k, j ∈ t.queue k := by
  rw [takeRound] at h
  split at h
  · cases h
  · next k _ => exact ⟨k, h⟩

theorem queue_takeRound_same (t : Trampoline J) {k : JobKind} (h : t.phase.kind? = some k) :
    t.takeRound.2.queue k = [] := by
  simp [takeRound, h]

theorem queue_takeRound_of_ne (t : Trampoline J) {k k' : JobKind} (h : t.phase.kind? = some k)
    (hne : k' ≠ k) : t.takeRound.2.queue k' = t.queue k' := by
  simp [takeRound, h, queue_withQueue_of_ne t hne]

/-- Taking a round leaves no job in a queue that was not there. -/
theorem mem_queue_takeRound {t : Trampoline J} {k : JobKind} {j : J}
    (h : j ∈ t.takeRound.2.queue k) : j ∈ t.queue k := by
  rw [takeRound] at h
  split at h
  · exact h
  · next k' _ =>
    by_cases hk : k = k'
    · subst hk
      simp at h
    · rwa [queue_withQueue_of_ne t hk] at h

/-- Passing to a phase leaves no job in a queue that was not there. -/
theorem mem_queue_enter {t : Trampoline J} {p : Phase} {k : JobKind} {j : J}
    (h : j ∈ (t.enter p).queue k) : j ∈ t.queue k := by
  cases p <;> cases k <;> first | exact h | exact absurd h List.not_mem_nil

end Trampoline

/-! ### Runs -/

namespace Run

variable {J W : Type} {sys : JobSystem J W} {mode : RunMode}

/-- The jobs performed so far, in order. -/
def jobs (r : Run J W) : List J := r.performed.map (·.job)

@[simp] theorem jobs_perform (r : Run J W) (j : J) : (r.perform sys j).jobs = r.jobs ++ [j] := by
  simp [jobs, perform]

/-- A round in which all is performed is a fold. -/
theorem performRound_all (r : Run J W) (js : List J) :
    performRound sys false r js = js.foldl (perform sys) r := by
  induction js generalizing r with
  | nil => rfl
  | cons j js ih => simp [performRound, ih]

theorem step_of_round_nil {r : Run J W} (h : r.round = []) : r.step sys mode = r.advance := by
  rw [round] at h
  rw [step]
  split
  · rfl
  · next jobs t hne htake => exact absurd (by simpa [htake] using h) hne

/-- A step of a run that performs all of its jobs is a round when there is one. -/
theorem step_of_round {r : Run J W} (h : r.round ≠ []) :
    r.step sys .all
      = r.round.foldl (perform sys) { r with trampoline := r.trampoline.takeRound.2 } := by
  rw [round] at h ⊢
  rw [step]
  split
  · next t htake => exact absurd (by simp [htake]) h
  · next jobs t hne htake => simp [halts, htake, performRound_all]

/-- What every step keeps holds when a run has come to its end. -/
theorem toEnd_induction {P : Run J W → Prop}
    (keeps : ∀ r, P r → r.isDone = false → P (r.step sys mode)) {r : Run J W}
    (h : Acc (StepOf sys mode) r) (hr : P r) :
    P (r.toEnd sys mode h) ∧ (r.toEnd sys mode h).isDone = true := by
  induction h with
  | intro r hacc ih =>
    rw [toEnd_eq]
    split
    · next hd => exact ⟨hr, hd⟩
    · next hd =>
      have hd : r.isDone = false := by simpa using hd
      exact ih _ ⟨hd, rfl⟩ (keeps r hr hd)

end Run

end PartyGraph
