import PartyGraph.Proofs.Trampoline.Requests

/-!
# Strides with nothing in between

When nobody else is there, strides make up steps: those of a script perform a job, those of its
jobs a round, and a round or the passage to the next phase is a step. So what is proved of steps is
about runs of this kind, and a workshop that runs a trampoline to its end does so by a launch and
strides.

## Main definitions

* `StagedRun.Comes`: a run becomes another by strides with nothing in between.

## Main results

* `StagedRun.comes_step`: a step is a number of strides.
* `Workshop.serve_launch_strides`: a run to its end is a launch and strides.
-/

namespace PartyGraph

namespace StagedRun

variable {J W : Type} {sys : JobSystem J W} {mode : RunMode} {r : Run J W}

/-- Whether a run becomes another by a number of strides with nothing in between. -/
def Comes (mode : RunMode) (s s' : StagedRun sys) : Prop :=
  ∃ n, s.play mode (List.replicate n .stride) = s'

theorem Comes.refl (s : StagedRun sys) : s.Comes mode s := ⟨0, rfl⟩

/-- One stride comes first. -/
theorem Comes.head {s s' s'' : StagedRun sys} (h : (s.stride mode).2 = s')
    (h' : s'.Comes mode s'') : s.Comes mode s'' := by
  obtain ⟨n, hn⟩ := h'
  subst h
  exact ⟨n + 1, hn⟩

theorem Comes.trans {s s' s'' : StagedRun sys} (h : s.Comes mode s') (h' : s'.Comes mode s'') :
    s.Comes mode s'' := by
  obtain ⟨m, rfl⟩ := h
  obtain ⟨n, rfl⟩ := h'
  exact ⟨m + n, by rw [← List.replicate_append_replicate, play_append]⟩

/-- The strides of a job, to its end. -/
theorem comes_script (hd : r.isDone = false) (j : J)
    (script : Script J sys.Command sys.Answer) (tried : List (Registration J)) (rest : List J) :
    let result := script.run sys.answer r.trampoline r.world
    (⟨r, .performing j script tried rest⟩ : StagedRun sys).Comes mode
      ((⟨⟨result.trampoline, result.world, r.performed⟩, .polling⟩ : StagedRun sys).conclude mode
        ⟨r.phase, j, result.ending.failure?, tried ++ result.registrations⟩ rest) := by
  dsimp only
  induction script generalizing r tried with
  | finish ending =>
    refine .head ?_ (.refl _)
    simp [stride, hd, Script.run, conclude]
  | register kind k next ih =>
    cases ht : r.trampoline.register kind k with
    | ok t =>
      have hp : t.phase = r.trampoline.phase := Script.phase_register ht
      have hd' : ({ r with trampoline := t } : Run J W).isDone = false := by
        rw [Run.isDone, Run.phase] at hd ⊢
        rwa [hp]
      refine .head (by simp [stride, hd, Trampoline.attempt_of_ok ht])
        (?_ : Comes mode ⟨{ r with trampoline := t }, .performing j (next none)
          (tried ++ [⟨kind, k, none⟩]) rest⟩ _)
      have := ih none hd' (tried ++ [⟨kind, k, none⟩])
      simpa [Script.run, ht, Script.Result.after, Run.phase, hp] using this
    | error e =>
      refine .head (by simp [stride, hd, Trampoline.attempt_of_error ht])
        (?_ : Comes mode ⟨r, .performing j (next (some e)) (tried ++ [⟨kind, k, some e⟩]) rest⟩ _)
      have := ih (some e) hd (tried ++ [⟨kind, k, some e⟩])
      simpa [Script.run, ht, Script.Result.after] using this
  | look next ih =>
    exact .head (by simp [stride, hd]) (ih r.trampoline.view hd tried)
  | ask c next ih =>
    exact .head (by simp [stride, hd]) (ih (sys.answer c r.world).1
      (r := { r with world := (sys.answer c r.world).2 }) hd tried)

/-- What follows a job: the rest of the round, or the end of the phase at a failure. -/
theorem comes_job (hd : r.isDone = false) (j : J) (rest : List J) :
    (⟨r, .ofRound (j :: rest)⟩ : StagedRun sys).Comes mode ⟨r.perform sys j,
      if r.halts mode && (r.perform sys j).failedIn .actions then .leaving else .ofRound rest⟩ := by
  have halts : r.halts mode = (r.perform sys j).halts mode := by
    simp [Run.halts]
  rw [halts]
  exact comes_script hd j (sys.script j) [] rest

/-- The strides of a round, to its end or to a failure that ends it. -/
theorem comes_round (hd : r.isDone = false) (j : J) (js : List J) :
    let r' := Run.performRound sys (r.halts mode) r (j :: js)
    (⟨r, .ofRound (j :: js)⟩ : StagedRun sys).Comes mode
      ⟨r', if r.halts mode && r'.failedIn .actions then .leaving else .polling⟩ := by
  dsimp only
  induction js generalizing r j with
  | nil =>
    have hround : Run.performRound sys (r.halts mode) r [j] = r.perform sys j := by
      simp [Run.performRound]
    rw [hround]
    exact comes_job hd j []
  | cons j' js ih =>
    refine (comes_job hd j (j' :: js)).trans ?_
    rw [Run.performRound]
    split
    · exact .refl _
    · have hd' : (r.perform sys j).isDone = false := by
        rw [Run.isDone, Run.phase_perform]
        exact hd
      have halts : (r.perform sys j).halts mode = r.halts mode := by
        simp [Run.halts]
      simpa only [halts] using ih hd' j'

/-- **A step is a number of strides** with nothing in between. -/
theorem comes_step (hd : r.isDone = false) :
    (⟨r, .polling⟩ : StagedRun sys).Comes mode ⟨r.step sys mode, .polling⟩ := by
  have leave : ∀ {r : Run J W}, r.isDone = false →
      (⟨r, .leaving⟩ : StagedRun sys).Comes mode ⟨r.advance, .polling⟩ := fun hd =>
    .head (by simp [stride, hd]) (.refl _)
  cases hround : r.round with
  | nil =>
    rw [Run.step_of_round_nil hround]
    refine .head ?_ (leave hd)
    have htake : r.trampoline.takeRound = ([], r.trampoline.takeRound.2) := Prod.ext hround rfl
    rw [stride, if_neg (by simp [hd])]
    dsimp only
    rw [htake]
  | cons j js =>
    let taken : Run J W := { r with trampoline := r.trampoline.takeRound.2 }
    have hphase : taken.phase = r.phase := Run.round_takeRound r
    have htaken : taken.isDone = false := by
      rw [Run.isDone, hphase]
      exact hd
    have halts : taken.halts mode = r.halts mode := by
      rw [Run.halts, Run.halts, hphase]
    have htake : (stride mode (⟨r, .polling⟩ : StagedRun sys)).2 = ⟨taken, .ofRound (j :: js)⟩ := by
      have : r.trampoline.takeRound = (j :: js, r.trampoline.takeRound.2) := Prod.ext hround rfl
      rw [stride, if_neg (by simp [hd])]
      dsimp only
      rw [this]
    refine .head htake ((comes_round htaken j js).trans ?_)
    rw [Run.step_eq_of_round (by simp [hround]), hround, halts]
    dsimp only
    split
    · refine leave ?_
      rw [Run.isDone, Run.phase_performRound]
      exact htaken
    · exact .refl _

/-- So is a run to its end. -/
theorem comes_toEnd (h : Acc (Run.StepOf sys mode) r) :
    (⟨r, .polling⟩ : StagedRun sys).Comes mode ⟨r.toEnd sys mode h, .polling⟩ := by
  induction h with
  | intro r hacc ih =>
    rw [Run.toEnd_eq]
    split
    · exact .refl _
    · next hd =>
      have hd : r.isDone = false := by simpa using hd
      exact (comes_step hd).trans (ih (r.step sys mode) ⟨hd, rfl⟩)

end StagedRun

namespace Workshop

variable {w w' : Workshop} {i : Nat} {r : Runner} {mode : RunMode}

theorem setRun_setRun (w : Workshop) (i : Nat) (r : Runner) (mode mode' : RunMode)
    (c : Option Course) (s s' : StagedRun Placed.system) :
    (w.setRun i r mode s).setRun i { r with executed := true, course := c } mode' s'
      = w.setRun i r mode' s' := by
  simp [setRun]

/-- The strides of a run that is alone in the workshop. -/
theorem serve_strides (hr : w.runners[i]? = some r) (hlt : r.trampoline < w.trampolines.size)
    (n : Nat) (s : StagedRun Placed.system) :
    (w.setRun i r mode s).serve (List.replicate n (.stride i))
      = w.setRun i r mode (s.play mode (List.replicate n .stride)) := by
  induction n generalizing s with
  | zero => rfl
  | succ n ih =>
    have hrun : (w.setRun i r mode s).runOf
        { r with executed := true, course := some ⟨mode, s.performed, s.stage⟩ }
        ⟨mode, s.performed, s.stage⟩ = s := by
      rw [runOf, (sets_setRun hlt i mode s).same]
      rfl
    have hstride : ((w.setRun i r mode s).respond (.stride i)).2
        = w.setRun i r mode (s.stride mode).2 := by
      rw [respond, underway?, runners_setRun_same hr]
      dsimp only
      rw [hrun]
      by_cases hdone : s.isDone = true
      · simp [StagedRun.stride, hdone]
      · rw [if_neg hdone]
        dsimp only
        rw [Workshop.stride, hrun, setRun_setRun]
    rw [List.replicate_succ, serve, hstride, ih]
    rfl

/-- **A run to its end is its launch and strides** with nothing in between. -/
theorem serve_launch_strides {o : Run.Outcome} (hr : w.runners[i]? = some r)
    (hlt : r.trampoline < w.trampolines.size) (h : w.execute i r mode = .ok (o, w')) :
    ∃ n, w.serve (.launch i mode :: List.replicate n (.stride i)) = w' := by
  rw [execute] at h
  split at h
  · cases h
  · next hfresh =>
    obtain ⟨-, rfl⟩ := Prod.mk.inj (Except.ok.inj h)
    obtain ⟨n, hn⟩ := StagedRun.comes_toEnd
      (Run.acc_stepOf Placed.wellFounded_below mode (Run.start (w.trampoline r.trampoline) w.bench))
    refine ⟨n, ?_⟩
    have hlaunch : (w.respond (.launch i mode)).2 =
        w.setRun i r mode (.start Placed.system (w.trampoline r.trampoline) w.bench) := by
      simp [respond, hr, launch, hfresh]
    rw [serve, hlaunch, serve_strides hr hlt, StagedRun.start, hn]

end Workshop

end PartyGraph
