import PartyGraph.Proofs.Trampoline.Accounting
import PartyGraph.Proofs.Trampoline.Worklist

/-!
# The course of a run

The log of a run only grows, and the phase only moves on. So what has been performed in the phase of
actions, and whether any of it failed, is settled when that phase is left (`failedIn_actions_eq`),
and a run that is over has passed through the phases that go with it (`visits_iff`).

Each entry of the log tells what the script of its job did to the trampoline and the world that the
job found (`Run.Scripted`). What is proved of scripts is thereby known of the log.

## Main definitions

* `Run.entriesIn`: what was performed in a phase, with failures and registrations.
* `Run.Scripted`: the entries of the log are results of scripts.

## Main results

* `Run.prefix_performed_of_le`: the log only grows.
* `Run.phase_step`: a step stays in the phase or passes on to the next.
* `Run.visits_iff`: through which phases a run has passed when it is over.
-/

namespace PartyGraph

/-- What holds first and later no more ceases to hold at some point. -/
theorem exists_last_before {P : Nat → Prop} (hzero : P 0) {n : Nat} (hn : ¬ P n) :
    ∃ m < n, P m ∧ ¬ P (m + 1) := by
  induction n with
  | zero => exact absurd hzero hn
  | succ n ih =>
    by_cases h : P n
    · exact ⟨n, Nat.lt_succ_self n, h, hn⟩
    · obtain ⟨m, hm, hpm⟩ := ih h
      exact ⟨m, Nat.lt_succ_of_lt hm, hpm⟩

/-- What a script registers and is accepted is what it is allowed to register. -/
theorem Script.Within.accepted {J C W : Type} {A : C → Type} {job : JobKind → J → Prop}
    {command : C → Prop} {s : Script J C A} (h : s.Within job command)
    (answer : (c : C) → W → A c × W) (t : Trampoline J) (w : W) (k : JobKind) :
    ∀ j ∈ Registration.accepted k (s.run answer t w).registrations, job k j := by
  obtain ⟨new, hnew, hall⟩ := h.queue t w k
  rw [queue_run] at hnew
  rw [List.append_cancel_left hnew]
  exact hall

namespace Run

variable {J W : Type} {sys : JobSystem J W} {mode : RunMode} {t : Trampoline J} {w : W}
  {r r' : Run J W}

/-! ### The log -/

theorem steps_add (m n : Nat) (r : Run J W) :
    steps sys mode (m + n) r = steps sys mode n (steps sys mode m r) := by
  induction m generalizing r with
  | zero => rw [Nat.zero_add, steps]
  | succ m ih => rw [Nat.succ_add, steps, steps, ih]

theorem steps_succ (n : Nat) (r : Run J W) :
    steps sys mode (n + 1) r = (steps sys mode n r).step sys mode :=
  steps_add n 1 r

/-- What was performed in a phase, in order. -/
def entriesIn (r : Run J W) (p : Phase) : List (Performed J) := r.performed.filter (·.phase = p)

theorem failuresIn_eq (r : Run J W) (p : Phase) :
    r.failuresIn p = (r.entriesIn p).filterMap (·.failure) := by
  rw [failuresIn, entriesIn, List.filterMap_filter]
  congr 1
  funext e
  by_cases h : e.phase = p <;> simp [h]

theorem failedIn_congr {p : Phase} (h : r'.entriesIn p = r.entriesIn p) :
    r'.failedIn p = r.failedIn p := by
  rw [failedIn, failedIn, failuresIn_eq, failuresIn_eq, h]

theorem failedIn_eq_false {p : Phase} :
    r.failedIn p = false ↔ ∀ e ∈ r.performed, e.phase = p → e.failure = none := by
  rw [← Bool.not_eq_true, failedIn_eq_true]
  constructor
  · intro hno e he hp
    exact Option.not_isSome_iff_eq_none.mp fun hsome => hno ⟨e, he, hp, hsome⟩
  · rintro hall ⟨e, he, hp, hsome⟩
    rw [hall e he hp] at hsome
    cases hsome

/-- A failure that was not met before is that of the last job. -/
theorem exists_failure_of_perform {p : Phase} {j : J} (hr : r.failedIn p = false)
    (hj : (r.perform sys j).failedIn p = true) : ∃ f, (r.entry sys j).failure = some f := by
  obtain ⟨e, he, hp, hfailed⟩ := failedIn_eq_true.mp hj
  rcases Sequenced.mem_performed_perform.mp he with he | rfl
  · rw [failedIn_eq_false.mp hr e he hp] at hfailed
    cases hfailed
  · exact Option.isSome_iff_exists.mp hfailed

/-- A failure is never taken back. -/
theorem failedIn_mono {p : Phase} (h : r.performed <+: r'.performed)
    (hr : r.failedIn p = true) : r'.failedIn p = true := by
  obtain ⟨e, he, hfailed⟩ := failedIn_eq_true.mp hr
  exact failedIn_eq_true.mpr ⟨e, h.subset he, hfailed⟩

theorem prefix_performed_steps (r : Run J W) (n : Nat) :
    r.performed <+: (steps sys mode n r).performed := by
  refine steps_induction (P := fun r' => r.performed <+: r'.performed) (fun r' h => ?_) n
    List.prefix_rfl
  exact step_keeps (P := fun r' => r.performed <+: r'.performed)
    (fun _ _ h => h.trans (List.prefix_append _ _)) (fun _ h => h) (fun _ h => h) h

variable (sys mode) in
theorem prefix_performed_of_le {m n : Nat} (h : m ≤ n) (r : Run J W) :
    (steps sys mode m r).performed <+: (steps sys mode n r).performed := by
  obtain ⟨k, rfl⟩ := Nat.exists_eq_add_of_le h
  rw [steps_add]
  exact prefix_performed_steps _ k

theorem prefix_performed_foldl (js : List J) (r : Run J W) :
    r.performed <+: (js.foldl (perform sys) r).performed := by
  obtain ⟨es, hes, -⟩ := exists_entries_foldl sys js r
  exact ⟨es, hes.symm⟩

theorem phase_foldl (js : List J) (r : Run J W) : (js.foldl (perform sys) r).phase = r.phase := by
  rw [← performRound_all, phase_performRound]

theorem Sequenced.foldl (h : r.Sequenced) (js : List J) :
    (js.foldl (Run.perform sys) r).Sequenced := by
  induction js generalizing r with
  | nil => exact h
  | cons j js ih => exact ih (h.perform j)

/-- As long as actions are performed, nothing else has been. -/
theorem Sequenced.phase_eq_actions (h : r.Sequenced) (hp : r.phase = .actions) :
    ∀ e ∈ r.performed, e.phase = .actions :=
  fun e he => Phase.eq_actions_of_rank_le (hp ▸ h.ahead e he)

variable (sys mode) in
/-- Once the phase of actions is left, no action is performed any more. -/
theorem entriesIn_actions_steps (h : r.phase ≠ .actions) (n : Nat) :
    (steps sys mode n r).phase ≠ .actions ∧
      (steps sys mode n r).entriesIn .actions = r.entriesIn .actions := by
  let Left (r' : Run J W) : Prop :=
    r'.phase ≠ .actions ∧ r'.entriesIn .actions = r.entriesIn .actions
  have perform (r' : Run J W) (j : J) (h : Left r') : Left (r'.perform sys j) := by
    refine ⟨by rw [phase_perform]; exact h.1, ?_⟩
    rw [entriesIn, performed_perform, List.filter_append, ← h.2, entriesIn]
    simp [entry, h.1]
  have takeRound (r' : Run J W) (h : Left r') :
      Left { r' with trampoline := r'.trampoline.takeRound.2 } :=
    ⟨by rw [round_takeRound]; exact h.1, h.2⟩
  have advance (r' : Run J W) (h : Left r') : Left r'.advance :=
    ⟨phase_advance_ne_actions r', h.2⟩
  exact steps_induction (P := Left) (fun r' h => step_keeps perform takeRound advance h) n ⟨h, rfl⟩

/-- Which actions failed is settled when the phase of actions is left. -/
theorem failedIn_actions_eq {i n : Nat} (hi : (steps sys mode i r).phase ≠ .actions)
    (hn : (steps sys mode n r).phase ≠ .actions) :
    (steps sys mode i r).failedIn .actions = (steps sys mode n r).failedIn .actions := by
  have fromI := failedIn_congr (entriesIn_actions_steps sys mode hi n).2
  have fromN := failedIn_congr (entriesIn_actions_steps sys mode hn i).2
  rw [← steps_add] at fromI fromN
  rw [← fromI, Nat.add_comm, fromN]

variable (sys mode) in
theorem sequenced_steps (ht : t.phase = .actions) (w : W) (n : Nat) :
    (steps sys mode n (start t w)).Sequenced :=
  steps_induction (fun _ h => h.step) n (.start ht w)

variable (sys mode) in
theorem accounted_steps (ht : t.phase = .actions) (w : W) (n : Nat) :
    Accounted mode t [] (steps sys mode n (start t w)) :=
  steps_induction (fun _ h => h.step) n (.start ht w)

/-! ### Scripts of the jobs performed -/

/-- Whether each entry of the log tells what the script of its job did to some trampoline in the
phase of the entry and to some world. -/
def Scripted (sys : JobSystem J W) (r : Run J W) : Prop :=
  ∀ e ∈ r.performed, ∃ (t : Trampoline J) (w : W), t.phase = e.phase ∧
    e.failure = ((sys.script e.job).run sys.answer t w).ending.failure? ∧
    e.registrations = ((sys.script e.job).run sys.answer t w).registrations

theorem Scripted.start (t : Trampoline J) (w : W) : (start t w).Scripted sys :=
  fun _ he => absurd he List.not_mem_nil

theorem Scripted.step (h : r.Scripted sys) : (r.step sys mode).Scripted sys := by
  refine step_keeps (P := Scripted sys) (fun r j h e he => ?_) (fun _ h => h) (fun _ h => h) h
  rcases Sequenced.mem_performed_perform.mp he with he | rfl
  · exact h e he
  · exact ⟨r.trampoline, r.world, rfl, rfl, rfl⟩

/-- What a performed job registered and was accepted is what its script may register. -/
theorem Scripted.accepted (h : r.Scripted sys) {e : Performed J} (he : e ∈ r.performed)
    {job : JobKind → J → Prop} {command : sys.Command → Prop}
    (hscript : (sys.script e.job).Within job command) (k : JobKind) :
    ∀ j ∈ e.accepted k, job k j := by
  obtain ⟨t, w, -, -, hregistrations⟩ := h e he
  rw [Performed.accepted, hregistrations]
  exact hscript.accepted sys.answer t w k

variable (sys mode) in
theorem scripted_steps (t : Trampoline J) (w : W) (n : Nat) :
    (steps sys mode n (Run.start t w)).Scripted sys :=
  steps_induction (fun _ h => h.step) n (.start t w)

/-- What comes of the phases of actions and of success is found in the order of the log. -/
theorem flatMap_eq_of_ordered {β : Type} {es : List (Performed J)} {f : Performed J → List β}
    (hordered : es.Pairwise fun a b => b.phase.rank ≤ a.phase.rank)
    (hf : ∀ e ∈ es, e.phase ≠ .actions → e.phase ≠ .success → f e = []) :
    es.flatMap f = (es.filter (·.phase = .actions)).flatMap f
      ++ (es.filter (·.phase = .success)).flatMap f := by
  induction es with
  | nil => rfl
  | cons e es ih =>
    obtain ⟨hfirst, hrest⟩ := List.pairwise_cons.mp hordered
    have ih := ih hrest fun x hx => hf x (List.mem_cons_of_mem _ hx)
    by_cases ha : e.phase = .actions
    · simp [ha, ih]
    · -- What follows an entry of a later phase are no actions.
      have hnone : es.filter (·.phase = .actions) = [] := by
        refine List.filter_eq_nil_iff.mpr fun x hx hp => ha (Phase.eq_actions_of_rank_le ?_)
        have hle := hfirst x hx
        rwa [of_decide_eq_true hp] at hle
      rw [hnone, List.flatMap_nil, List.nil_append] at ih
      by_cases hs : e.phase = .success
      · simp [hs, ih, hnone]
      · simp [ha, hs, ih, hnone, hf e List.mem_cons_self ha hs]

/-! ### Phases that a run passes through -/

variable (sys mode) in
/-- A step stays in the phase, or it passes on to the next in view of the failures met by then. -/
theorem phase_step (r : Run J W) :
    (r.step sys mode).phase = r.phase ∨
      ∃ r' : Run J W, r.step sys mode = r'.advance ∧ r'.phase = r.phase := by
  by_cases hnil : r.round = []
  · rw [step_of_round_nil hnil]
    exact .inr ⟨r, rfl, rfl⟩
  · have hphase : (performRound sys (r.halts mode)
        { r with trampoline := r.trampoline.takeRound.2 } r.round).phase = r.phase := by
      rw [phase_performRound, round_takeRound]
    rw [step_eq_of_round hnil]
    dsimp only
    split
    · exact .inr ⟨_, rfl, hphase⟩
    · exact .inl hphase

/-- The phase of actions is followed by that of errors or that of success. -/
theorem phase_step_of_actions (h : r.phase = .actions)
    (hnext : (r.step sys mode).phase ≠ .actions) :
    (r.step sys mode).phase =
      if (r.step sys mode).failedIn .actions then .error else .success := by
  rcases phase_step sys mode r with hstays | ⟨r', hstep, hr'⟩
  · exact absurd (hstays.trans h) hnext
  · rw [hstep, phase_advance, nextPhase, hr', h]
    rfl

theorem phase_step_of_handlers (h : r.phase = .success ∨ r.phase = .error)
    (hnext : (r.step sys mode).phase ≠ r.phase) : (r.step sys mode).phase = .closing := by
  rcases phase_step sys mode r with hstays | ⟨r', hstep, hr'⟩
  · exact absurd hstays hnext
  · rw [hstep, phase_advance, nextPhase, hr']
    rcases h with h | h <;> rw [h]

theorem phase_steps_of_completed (h : r.phase = .completed) (n : Nat) :
    (steps sys mode n r).phase = .completed := by
  refine steps_induction (P := fun r : Run J W => r.phase = .completed) (fun r h => ?_) n h
  rcases phase_step sys mode r with hstays | ⟨r', hstep, hr'⟩
  · exact hstays.trans h
  · rw [hstep, phase_advance, nextPhase, hr', h]

/-- **A run that is over has passed through the phases that go with its failures**: through all,
except that of success when an action failed and that of errors when none did. -/
theorem visits_iff (ht : t.phase = .actions) {n : Nat}
    (hdone : (steps sys mode n (start t w)).isDone = true) (p : Phase) :
    (∃ i, (steps sys mode i (start t w)).phase = p) ↔
      p.suits ((steps sys mode n (start t w)).failedIn .actions) = true := by
  have hlast : (steps sys mode n (start t w)).phase = .completed := phase_of_isDone hdone
  have hleft : (steps sys mode n (start t w)).phase ≠ .actions := by simp [hlast]
  constructor
  · rintro ⟨i, rfl⟩
    by_cases hi : (steps sys mode i (start t w)).phase = .actions
    · rw [hi]
      rfl
    · rw [← failedIn_actions_eq hi hleft]
      exact (sequenced_steps sys mode ht w i).suits
  · intro hsuits
    obtain ⟨i, -, hi, hnext⟩ := exists_last_before
      (P := fun i => (steps sys mode i (start t w)).phase = .actions) ht (n := n) (by simp [hlast])
    have hfailed := failedIn_actions_eq hnext hleft
    rw [steps_succ] at hnext hfailed
    have hphase := phase_step_of_actions hi hnext
    rw [hfailed, ← steps_succ] at hphase
    cases p with
    | actions => exact ⟨0, ht⟩
    | success =>
      have hf : (steps sys mode n (start t w)).failedIn .actions = false := by
        simpa [Phase.suits] using hsuits
      exact ⟨i + 1, by rw [hphase, hf]; rfl⟩
    | error =>
      have hf : (steps sys mode n (start t w)).failedIn .actions = true := hsuits
      exact ⟨i + 1, by rw [hphase, hf]; rfl⟩
    | closing =>
      have hsort : (steps sys mode (i + 1) (start t w)).phase = .success ∨
          (steps sys mode (i + 1) (start t w)).phase = .error := by
        rw [hphase]
        split
        · exact .inr rfl
        · exact .inl rfl
      -- The phase of handlers is left as well, since the run is over in the end.
      obtain ⟨k, -, hk, hleft⟩ := exists_last_before
        (P := fun k => (steps sys mode k (steps sys mode (i + 1) (start t w))).phase
          = (steps sys mode (i + 1) (start t w)).phase) rfl (n := n) (by
            rw [← steps_add, Nat.add_comm, steps_add, phase_steps_of_completed hlast]
            rcases hsort with h | h <;> simp [h])
      refine ⟨i + 1 + (k + 1), ?_⟩
      rw [steps_add, steps_succ]
      rw [steps_succ] at hleft
      exact phase_step_of_handlers (by rwa [hk]) (by rwa [hk])
    | completed => exact ⟨n, hlast⟩

end Run

end PartyGraph
