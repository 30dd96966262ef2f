import Mathlib.Data.List.Chain
import Mathlib.Order.Bounds.Defs
import Mathlib.Order.Monotone.Defs
import PartyGraph.Proofs.Trampoline.Course

/-!
# The forest of registrations

The jobs accepted for a run form a forest: at its roots are those registered before the run, and
each of the others was registered by a job that the run performed. Equal jobs may be registered any
number of times, so a node of the forest is not a job but an acceptance, and has the number that it
has among those of its kind. What a run performs in a phase are the first of those accepted for it,
so the log tells which node registered which (`Run.Registered`).

The queues of a run grow while they are drained, and jobs of one phase feed others. What decreases
is the next round: all its nodes are children of nodes of the round before, which is a decrease as
long as no chain of nodes each registering the next is infinite (`AllBelow`). So such a run comes to
its end, and it needs no bound on the number of jobs for that.

Rounds of actions are the levels of the forest. With the nodes of each round in a row, the next
round begins where it ends, and goes as far as its nodes have registered: if `A i` is how many
actions were accepted by the time that `i` jobs were performed, the rounds are between the numbers
`0`, `A 0`, `A (A 0)` and so on.

## Main definitions

* `Node`: an acceptance of a job.
* `Run.Registered`, `Run.ChildOf`: which acceptance is whose child.
* `JobSystem.MayRegister`: what a job may register when it is performed.
* `Run.ComesToRest`: how a run ends, and after how many rounds.

## Main results

* `Run.exists_parent`: all nodes of a round have parents in the round before.
* `Run.exists_isDone`: when no chain of nodes is infinite, the run comes to its end.
* `Run.isGreatest_length`: rounds are levels.
* `Run.comesToRest`: whole runs.
-/

namespace PartyGraph

/-- An acceptance of a job: the kind of work, and how many jobs were accepted for it before. -/
structure Node where
  kind : JobKind
  number : Nat
deriving DecidableEq, Repr

/-- The jobs of a kind registered before a run and by the jobs of its log, and accepted. -/
def Trampoline.acceptedBy {J : Type} (t : Trampoline J) (log : List (Performed J)) (k : JobKind) :
    List J :=
  t.queue k ++ log.flatMap (Performed.accepted k)

/-- Whether `j`, performed in some state of a trampoline and the world, registers `k` without being
refused. -/
def JobSystem.MayRegister {J W : Type} (sys : JobSystem J W) (k j : J) : Prop :=
  ∃ (t : Trampoline J) (w : W) (kind : JobKind),
    k ∈ Registration.accepted kind ((sys.script j).run sys.answer t w).registrations

/-- A script registers no job but those that it mentions. -/
theorem Script.mentions_of_mem_registrations {J C W : Type} {A : C → Type}
    {answer : (c : C) → W → A c × W} {s : Script J C A} {t : Trampoline J} {w : W}
    {g : Registration J} (hg : g ∈ (s.run answer t w).registrations) : s.Mentions g.job := by
  induction s generalizing t w with
  | finish e => exact absurd hg List.not_mem_nil
  | register kind j next ih =>
    rw [run] at hg
    split at hg
    all_goals
      rcases List.mem_cons.mp hg with rfl | hg
      · exact .here
      · exact .after _ (ih _ hg)
  | look next ih => exact .look _ (ih _ hg)
  | ask c next ih => exact .ask _ (ih _ hg)

theorem JobSystem.MayRegister.below {J W : Type} {sys : JobSystem J W} {k j : J}
    (h : sys.MayRegister k j) : sys.Below k j := by
  obtain ⟨t, w, kind, hk⟩ := h
  obtain ⟨g, hg, hk⟩ := List.mem_filterMap.mp hk
  split at hk
  · rw [← Option.some.inj hk]
    exact Script.mentions_of_mem_registrations hg
  · cases hk

/-- An element of one of several lists stands in one of them. -/
theorem exists_split_flatMap {α β : Type} {f : α → List β} {es : List α} {i : Nat}
    (hi : i < (es.flatMap f).length) :
    ∃ before e after, es = before ++ e :: after ∧ (before.flatMap f).length ≤ i ∧
      i < ((before ++ [e]).flatMap f).length := by
  induction es generalizing i with
  | nil => exact absurd hi (Nat.not_lt_zero i)
  | cons e es ih =>
    by_cases he : i < (f e).length
    · exact ⟨[], e, es, rfl, Nat.zero_le i, by simpa using he⟩
    · rw [List.flatMap_cons, List.length_append] at hi
      obtain ⟨before, e', after, rfl, hlo, hhi⟩ := ih (i := i - (f e).length) (by omega)
      refine ⟨e :: before, e', after, rfl, ?_, ?_⟩
      · rw [List.flatMap_cons, List.length_append]
        omega
      · rw [List.cons_append, List.flatMap_cons, List.length_append]
        omega

namespace Run

variable {J W : Type} {sys : JobSystem J W} {mode : RunMode} {t : Trampoline J} {w : W}
  {r : Run J W}

/-! ### Nodes -/

/-- Whether the job accepted as `child` was registered by the one accepted as `parent`, in a run
that began with a trampoline: by the job that is behind as many others in its phase as there were
accepted before it. -/
def Registered (t : Trampoline J) (r : Run J W) (parent child : Node) : Prop :=
  ∃ before e after, r.performed = before ++ e :: after ∧ e.phase = parent.kind.phase ∧
    (before.filter (·.phase = parent.kind.phase)).length = parent.number ∧
    (t.acceptedBy before child.kind).length ≤ child.number ∧
    child.number < (t.acceptedBy (before ++ [e]) child.kind).length

/-- Whether one node was registered by another at some time of a run. -/
def ChildOf (sys : JobSystem J W) (mode : RunMode) (t : Trampoline J) (w : W)
    (child parent : Node) : Prop :=
  ∃ n, (steps sys mode n (start t w)).Registered t parent child

/-- The job of a node. -/
def job? (t : Trampoline J) (r : Run J W) (x : Node) : Option J :=
  (t.acceptedBy r.performed x.kind)[x.number]?

/-- What is performed in a phase are the first of the jobs accepted for it. -/
theorem Accounted.prefix_performedIn (h : Accounted mode t [] r) (k : JobKind) :
    r.performedIn k.phase <+: t.acceptedBy r.performed k := by
  cases hk : r.phase.accepts k with
  | true => exact ⟨_, (h.balance k hk).symm⟩
  | false =>
    obtain ⟨dropped, hdropped, -⟩ := h.settled k hk
    exact ⟨dropped, hdropped.symm⟩

theorem acceptedBy_append (t : Trampoline J) (log more : List (Performed J)) (k : JobKind) :
    t.acceptedBy (log ++ more) k = t.acceptedBy log k ++ more.flatMap (Performed.accepted k) := by
  rw [Trampoline.acceptedBy, Trampoline.acceptedBy, List.flatMap_append, List.append_assoc]

theorem prefix_acceptedBy {log log' : List (Performed J)} (h : log <+: log') (k : JobKind) :
    t.acceptedBy log k <+: t.acceptedBy log' k := by
  obtain ⟨more, rfl⟩ := h
  exact ⟨more.flatMap (Performed.accepted k), (acceptedBy_append t log more k).symm⟩

/-! ### Rounds of nodes -/

/-- A round that is not broken off is a fold. -/
theorem performRound_eq_foldl {halting : Bool} {js : List J}
    (h : (halting && (performRound sys halting r js).failedIn .actions) = false) :
    performRound sys halting r js = js.foldl (perform sys) r := by
  induction js generalizing r with
  | nil => rfl
  | cons j js ih =>
    rw [performRound] at h ⊢
    split at h
    · next hstop =>
      rw [h] at hstop
      cases hstop
    · next hgoes =>
      rw [if_neg hgoes]
      exact ih h

/-- There are rounds only in phases that have work of their own. -/
theorem exists_kind (hround : r.round ≠ []) : ∃ k, r.phase.kind? = some k := by
  cases hk : r.phase.kind? with
  | none =>
    have hk : r.trampoline.phase.kind? = none := hk
    exact absurd (by rw [round, Trampoline.takeRound, hk]) hround
  | some k => exact ⟨k, rfl⟩

/-- Whether a step performs the whole round. -/
def PerformsRound (sys : JobSystem J W) (mode : RunMode) (r : Run J W) : Prop :=
  r.step sys mode
    = r.round.foldl (perform sys) { r with trampoline := r.trampoline.takeRound.2 }

variable (sys mode) in
/-- A step with a round in it performs the whole round, or the phase is left. -/
theorem performsRound_or_rank_lt (hround : r.round ≠ []) :
    r.PerformsRound sys mode ∨ (r.step sys mode).phase.rank < r.phase.rank := by
  rw [PerformsRound, step_eq_of_round hround]
  dsimp only
  split
  · next hstop =>
    have hphase : (performRound sys (r.halts mode)
        { r with trampoline := r.trampoline.takeRound.2 } r.round).phase = r.phase := by
      rw [phase_performRound, round_takeRound]
    obtain ⟨k, hk⟩ := exists_kind hround
    right
    rw [phase_advance, ← hphase]
    refine rank_nextPhase_lt fun hp => ?_
    rw [← hphase, hp] at hk
    cases hk
  · next hgoes => exact .inl (performRound_eq_foldl (by simpa using hgoes))

/-- The nodes of the next round. -/
def waitingNodes (r : Run J W) : List Node :=
  match r.phase.kind? with
  | none => []
  | some k => (List.range' (r.performedIn k.phase).length r.round.length).map (Node.mk k)

theorem mem_waitingNodes {k : JobKind} (hk : r.phase.kind? = some k) {x : Node} :
    x ∈ r.waitingNodes ↔ x.kind = k ∧ (r.performedIn k.phase).length ≤ x.number ∧
      x.number < (r.performedIn k.phase).length + r.round.length := by
  rw [waitingNodes, hk]
  dsimp only
  rw [List.mem_map]
  constructor
  · rintro ⟨i, hi, rfl⟩
    exact ⟨rfl, by simpa using hi⟩
  · rintro ⟨rfl, hx⟩
    exact ⟨x.number, by simpa using hx, rfl⟩

/-- What a whole round adds to the log, and which round comes next. -/
theorem PerformsRound.exists_entries (h : r.PerformsRound sys mode) {k : JobKind}
    (hk : r.phase.kind? = some k) :
    ∃ es, (r.step sys mode).performed = r.performed ++ es ∧ es.length = r.round.length ∧
      (∀ e ∈ es, e.phase = k.phase) ∧ (r.step sys mode).phase = r.phase ∧
      (r.step sys mode).round = es.flatMap (Performed.accepted k) := by
  obtain ⟨es, hes, hjobs, hesPhase, hqueue⟩ := exists_entries_foldl sys r.round
    { r with trampoline := r.trampoline.takeRound.2 }
  rw [← h] at hes hqueue
  have hphase : (r.step sys mode).phase = r.phase := by
    rw [h, phase_foldl, round_takeRound]
  refine ⟨es, hes, by rw [← hjobs, List.length_map], fun e he => ?_, hphase, ?_⟩
  · exact (hesPhase e he).trans ((round_takeRound r).trans (Phase.kind?_eq_some.mp hk))
  · have hk' : (r.step sys mode).phase.kind? = some k := by rw [hphase, hk]
    rw [round, Trampoline.takeRound_fst _ hk', hqueue k, Trampoline.queue_takeRound_same _ hk,
      List.nil_append]

/-- The jobs accepted for a phase are those performed in it and those of the next round. -/
theorem Accounted.length_acceptedBy (h : Accounted mode t [] r) {k : JobKind}
    (hk : r.phase.kind? = some k) :
    (t.acceptedBy r.performed k).length = (r.performedIn k.phase).length + r.round.length := by
  have hbalance := h.balance k (Phase.kind?_eq_some.mp hk ▸ k.accepts_phase)
  rw [waiting_nil, ← Trampoline.takeRound_fst _ hk] at hbalance
  exact (congrArg List.length hbalance).trans List.length_append

/-- **All nodes of a round have parents in the round before.** -/
theorem exists_parent (h : Accounted mode t [] r) {k : JobKind} (hk : r.phase.kind? = some k)
    (hround : r.PerformsRound sys mode) {x : Node} (hx : x ∈ (r.step sys mode).waitingNodes) :
    ∃ y ∈ r.waitingNodes, (r.step sys mode).Registered t y x := by
  obtain ⟨es, hes, hlength, hesPhase, hphase, hnext⟩ := hround.exists_entries hk
  -- The entries of the round are all of its phase, so they are numbered in a row.
  have hnumber (es' : List (Performed J)) (hsub : ∀ e ∈ es', e ∈ es) :
      ((r.performed ++ es').filter (·.phase = k.phase)).length
        = (r.performedIn k.phase).length + es'.length := by
    rw [List.filter_append, List.length_append, performedIn, List.length_map,
      List.filter_eq_self.mpr fun e he => decide_eq_true (hesPhase e (hsub e he))]
  have hperformed : ((r.step sys mode).performedIn k.phase).length
      = (r.performedIn k.phase).length + r.round.length := by
    rw [performedIn, List.length_map, hes, hnumber es fun _ he => he, hlength]
  obtain ⟨rfl, hlo, hhi⟩ := (mem_waitingNodes (by rw [hphase, hk])).mp hx
  rw [hperformed] at hlo hhi
  rw [hnext] at hhi
  have hnew : x.number - ((r.performedIn x.kind.phase).length + r.round.length)
      < (es.flatMap (Performed.accepted x.kind)).length := by omega
  obtain ⟨before, e, after, rfl, hblo, hbhi⟩ := exists_split_flatMap hnew
  have haccepted := h.length_acceptedBy hk
  refine ⟨⟨x.kind, (r.performedIn x.kind.phase).length + before.length⟩,
    (mem_waitingNodes hk).mpr ⟨rfl, Nat.le_add_right _ _, ?_⟩, r.performed ++ before, e, after,
    by rw [hes, List.append_assoc], hesPhase e (by simp),
    hnumber before fun _ he => List.mem_append_left _ he, ?_, ?_⟩
  · rw [List.length_append, List.length_cons] at hlength
    dsimp only
    omega
  · rw [acceptedBy_append, List.length_append, haccepted]
    omega
  · rw [List.append_assoc, acceptedBy_append, List.length_append, haccepted]
    omega

/-! ### Runs that come to their end -/

/-- **When no chain of nodes each registering the next is infinite, the run comes to its end.** -/
theorem exists_isDone (ht : t.phase = .actions) (hwf : WellFounded (ChildOf sys mode t w)) :
    ∃ n, (steps sys mode n (start t w)).isDone = true := by
  let Later : Phase × List Node → Phase × List Node → Prop :=
    InvImage (Prod.Lex (· < ·) (AllBelow (ChildOf sys mode t w))) fun x => (x.1.rank, x.2)
  have hlater : WellFounded Later :=
    InvImage.wf _ (Prod.lex ⟨_, Nat.lt_wfRel.wf⟩ ⟨_, wellFounded_allBelow hwf⟩).wf
  suffices h : ∀ x n, ((steps sys mode n (start t w)).phase,
      (steps sys mode n (start t w)).waitingNodes) = x →
        ∃ n, (steps sys mode n (start t w)).isDone = true from h _ 0 rfl
  intro x
  induction x using hlater.induction with
  | _ x ih =>
    rintro n rfl
    cases hd : (steps sys mode n (start t w)).isDone with
    | true => exact ⟨n, hd⟩
    | false =>
      refine ih _ ?_ (n + 1) rfl
      rw [steps_succ]
      have hne : (steps sys mode n (start t w)).phase ≠ .completed := by simpa [isDone] using hd
      by_cases hround : (steps sys mode n (start t w)).round = []
      · refine Prod.Lex.left _ _ ?_
        rw [step_of_round_nil hround, phase_advance]
        exact rank_nextPhase_lt hne
      · rcases performsRound_or_rank_lt sys mode hround with hstep | hrank
        · obtain ⟨k, hk⟩ := exists_kind hround
          have haccount := accounted_steps sys mode ht w n
          obtain ⟨es, -, -, -, hphase, -⟩ := hstep.exists_entries hk
          have hchildren : AllBelow (ChildOf sys mode t w)
              ((steps sys mode n (start t w)).step sys mode).waitingNodes
              (steps sys mode n (start t w)).waitingNodes := by
            refine ⟨fun hnil => ?_, fun x hx => ?_⟩
            · rw [waitingNodes, hk, List.map_eq_nil_iff, List.range'_eq_nil_iff] at hnil
              exact hround (List.length_eq_zero_iff.mp hnil)
            · obtain ⟨y, hy, hreg⟩ := exists_parent haccount hk hstep hx
              exact ⟨y, hy, n + 1, by rwa [steps_succ]⟩
          change Prod.Lex _ _ (_, _) (_, _)
          rw [hphase]
          exact Prod.Lex.right _ hchildren
        · exact Prod.Lex.left _ _ hrank

/-- A run that is over after some number of steps comes to its end. -/
theorem acc_stepOf_of_isDone {n : Nat} (h : (steps sys mode n r).isDone = true) :
    Acc (StepOf sys mode) r := by
  induction n generalizing r with
  | zero =>
    refine ⟨r, fun r' hr' => ?_⟩
    have hover : r.isDone = true := h
    rw [hr'.1] at hover
    cases hover
  | succ n ih =>
    refine ⟨r, ?_⟩
    rintro _ ⟨-, rfl⟩
    exact ih h

/-! ### Jobs that register no infinite chain -/

theorem job?_mono {r' : Run J W} (h : r.performed <+: r'.performed) {x : Node} {j : J}
    (hj : r.job? t x = some j) : r'.job? t x = some j := by
  obtain ⟨more, hmore⟩ := prefix_acceptedBy (t := t) h x.kind
  rw [job?] at hj ⊢
  rw [← hmore, List.getElem?_append_left (List.getElem?_eq_some_iff.mp hj).1, hj]

/-- A node registers what its job may register. -/
theorem Registered.mayRegister {y x : Node} (h : r.Registered t y x)
    (haccount : Accounted mode t [] r) (hscripted : r.Scripted sys) :
    ∃ j k, r.job? t y = some j ∧ r.job? t x = some k ∧ sys.MayRegister k j := by
  obtain ⟨before, e, after, hlog, hphase, hnumber, hlo, hhi⟩ := h
  have hparent : (r.performedIn y.kind.phase)[y.number]? = some e.job := by
    rw [performedIn, hlog, List.filter_append, List.filter_cons_of_pos (by simp [hphase]),
      List.map_append, List.map_cons, ← hnumber, List.getElem?_append_right (by simp)]
    simp
  have hchild : r.job? t x
      = (e.accepted x.kind)[x.number - (t.acceptedBy before x.kind).length]? := by
    rw [acceptedBy_append, List.length_append, List.flatMap_singleton] at hhi
    rw [job?, hlog, acceptedBy_append, List.getElem?_append_right hlo, List.flatMap_cons,
      List.getElem?_append_left (by omega)]
  have hlt : x.number - (t.acceptedBy before x.kind).length < (e.accepted x.kind).length := by
    rw [acceptedBy_append, List.length_append, List.flatMap_singleton] at hhi
    omega
  obtain ⟨t', w', -, -, hregistrations⟩ := hscripted e (by rw [hlog]; simp)
  refine ⟨e.job, (e.accepted x.kind)[x.number - (t.acceptedBy before x.kind).length], ?_, ?_,
    t', w', x.kind, ?_⟩
  · obtain ⟨more, hmore⟩ := haccount.prefix_performedIn y.kind
    rw [job?, ← hmore, List.getElem?_append_left (List.getElem?_eq_some_iff.mp hparent).1, hparent]
  · rw [hchild, List.getElem?_eq_getElem hlt]
  · rw [← hregistrations]
    exact List.getElem_mem hlt

/-- The nodes of a job that registers no infinite chain register none. -/
theorem acc_childOf (ht : t.phase = .actions) {j : J} (hj : Acc sys.MayRegister j) {x : Node}
    {n : Nat} (hx : (steps sys mode n (start t w)).job? t x = some j) :
    Acc (ChildOf sys mode t w) x := by
  induction hj generalizing x n with
  | intro j _ ih =>
    refine ⟨x, ?_⟩
    rintro y ⟨m, hreg⟩
    obtain ⟨j', k, hj', hk, hmay⟩ :=
      hreg.mayRegister (accounted_steps sys mode ht w m) (scripted_steps sys mode t w m)
    -- A node has the same job at all times at which it has one.
    have hn := job?_mono
      (prefix_performed_of_le sys mode (Nat.le_add_right n m) (start t w)) hx
    have hm := job?_mono
      (prefix_performed_of_le sys mode (Nat.le_add_left m n) (start t w)) hj'
    obtain rfl : j' = j := Option.some.inj (hm.symm.trans hn)
    exact ih k hmay hk

/-- Whether all jobs that wait and all that were performed belong to a set. -/
def Keeps (jobs : Set J) (r : Run J W) : Prop :=
  r.Waits jobs ∧ ∀ e ∈ r.performed, e.job ∈ jobs

section Keeps

variable {jobs : Set J} (hclosed : ∀ j ∈ jobs, ∀ k, sys.MayRegister k j → k ∈ jobs)
include hclosed

theorem Keeps.perform (h : r.Keeps jobs) {j : J} (hj : j ∈ jobs) :
    (r.perform sys j).Keeps jobs := by
  constructor
  · intro k i hi
    rw [queue_perform] at hi
    rcases List.mem_append.mp hi with hi | hi
    · exact h.1 k i hi
    · exact hclosed j hj i ⟨r.trampoline, r.world, k, hi⟩
  · intro e he
    rcases Sequenced.mem_performed_perform.mp he with he | rfl
    · exact h.2 e he
    · exact hj

theorem Keeps.performRound {halting : Bool} (h : r.Keeps jobs) {js : List J}
    (hjs : ∀ j ∈ js, j ∈ jobs) : (performRound sys halting r js).Keeps jobs := by
  induction js generalizing r with
  | nil => exact h
  | cons j js ih =>
    have hperform := h.perform hclosed (hjs j List.mem_cons_self)
    rw [Run.performRound]
    split
    · exact hperform
    · exact ih hperform fun i hi => hjs i (List.mem_cons_of_mem _ hi)

theorem Keeps.step (h : r.Keeps jobs) : (r.step sys mode).Keeps jobs := by
  have advance {r : Run J W} (h : r.Keeps jobs) : r.advance.Keeps jobs :=
    ⟨fun k j hj => h.1 k j (Trampoline.mem_queue_enter hj), h.2⟩
  by_cases hnil : r.round = []
  · rw [step_of_round_nil hnil]
    exact advance h
  · have hround : (Run.performRound sys (r.halts mode)
        { r with trampoline := r.trampoline.takeRound.2 } r.round).Keeps jobs := by
      have htaken : ({ r with trampoline := r.trampoline.takeRound.2 } : Run J W).Keeps jobs :=
        ⟨fun k j hj => h.1 k j (Trampoline.mem_queue_takeRound hj), h.2⟩
      refine htaken.performRound hclosed fun j hj => ?_
      obtain ⟨k, hj⟩ := Trampoline.mem_takeRound_fst hj
      exact h.1 k j hj
    rw [step_eq_of_round hnil]
    dsimp only
    split
    · exact advance hround
    · exact hround

/-- What is accepted belongs to the set as well. -/
theorem Keeps.acceptedBy (h : r.Keeps jobs) (hscripted : r.Scripted sys)
    (ht : ∀ k, ∀ j ∈ t.queue k, j ∈ jobs) {k : JobKind} {j : J}
    (hj : j ∈ t.acceptedBy r.performed k) : j ∈ jobs := by
  rcases List.mem_append.mp hj with hj | hj
  · exact ht k j hj
  · obtain ⟨e, he, hj⟩ := List.mem_flatMap.mp hj
    obtain ⟨t', w', -, -, hregistrations⟩ := hscripted e he
    rw [Performed.accepted, hregistrations] at hj
    exact hclosed e.job (h.2 e he) j ⟨t', w', k, hj⟩

end Keeps

variable (sys w) in
/-- **Jobs that register no infinite chain, whatever they find, make a forest without one.** -/
theorem wellFounded_childOf (ht : t.phase = .actions)
    (h : ∀ k, ∀ j ∈ t.queue k, Acc sys.MayRegister j) (mode : RunMode) :
    WellFounded (ChildOf sys mode t w) := by
  let jobs : Set J := {j | Acc sys.MayRegister j}
  have hclosed : ∀ j ∈ jobs, ∀ k, sys.MayRegister k j → k ∈ jobs := fun j hj k hk => hj.inv hk
  have hkeeps (n : Nat) : (steps sys mode n (start t w)).Keeps jobs :=
    steps_induction (fun _ h => h.step hclosed) n ⟨h, fun e he => absurd he List.not_mem_nil⟩
  refine ⟨fun x => ⟨x, ?_⟩⟩
  rintro y ⟨n, hreg⟩
  have hscripted := scripted_steps sys mode t w n
  obtain ⟨j, k, -, hk, -⟩ := hreg.mayRegister (accounted_steps sys mode ht w n) hscripted
  have hacc : k ∈ jobs :=
    (hkeeps n).acceptedBy hclosed hscripted h (List.mem_of_getElem? hk)
  exact acc_childOf ht hacc hk

/-! ### Rounds of actions are levels -/

/-- Whether a list of actions, given by their numbers, leads from a node of the forest of accepted
actions towards its root, each registered by the next. -/
def IsBranch (t : Trampoline J) (r : Run J W) (branch : List Nat) : Prop :=
  branch.IsChain (fun child parent => r.Registered t ⟨.action, parent⟩ ⟨.action, child⟩) ∧
    ∀ i ∈ branch, i < (t.acceptedBy r.performed .action).length

/-- The number of rounds of actions among the first steps of a run of all jobs. -/
def actionRounds (sys : JobSystem J W) (t : Trampoline J) (w : W) (n : Nat) : Nat :=
  (List.range n).countP fun i => decide ((steps sys .all i (start t w)).phase = .actions) &&
    !(steps sys .all i (start t w)).round.isEmpty

/-- The rounds of actions of a run that is over after `n` steps: they are the first `rounds` steps,
and the last leaves no action waiting. -/
structure ActsFor (sys : JobSystem J W) (t : Trampoline J) (w : W) (n rounds : Nat) : Prop where
  lt : rounds < n
  acting : ∀ i, (steps sys .all i (start t w)).phase = .actions ↔ i ≤ rounds
  busy : ∀ i < rounds, (steps sys .all i (start t w)).round ≠ []
  idle : (steps sys .all rounds (start t w)).round = []

theorem exists_actsFor (ht : t.phase = .actions) {n : Nat}
    (hdone : (steps sys .all n (start t w)).isDone = true) :
    ∃ rounds, ActsFor sys t w n rounds := by
  obtain ⟨m, hmn, hm, hnext⟩ := exists_last_before
    (P := fun i => (steps sys .all i (start t w)).phase = .actions) ht (n := n)
    (by simp [phase_of_isDone hdone])
  have hleft {i j : Nat} (hij : i ≤ j) (hi : (steps sys .all i (start t w)).phase ≠ .actions) :
      (steps sys .all j (start t w)).phase ≠ .actions := by
    obtain ⟨k, rfl⟩ := Nat.exists_eq_add_of_le hij
    rw [steps_add]
    exact (entriesIn_actions_steps sys .all hi k).1
  have hacting {i : Nat} : (steps sys .all i (start t w)).phase = .actions ↔ i ≤ m := by
    constructor
    · intro hi
      by_contra hlt
      exact hleft (show m + 1 ≤ i by omega) hnext hi
    · intro hi
      by_contra hne
      exact hleft hi hne hm
  refine ⟨m, hmn, fun _ => hacting, fun i hi hround => ?_, ?_⟩
  · have hi' := hacting.mpr (show i + 1 ≤ m from hi)
    rw [steps_succ, step_of_round_nil hround] at hi'
    exact phase_advance_ne_actions _ hi'
  · by_contra hround
    rw [steps_succ] at hnext
    exact hnext ((consecutive (k := .action) (by rw [hm]; rfl) hround).phase.trans hm)

theorem countP_range_lt (m n : Nat) :
    (List.range n).countP (fun i => decide (i < m)) = min m n := by
  induction n with
  | zero => simp
  | succ n ih =>
    rw [List.range_succ, List.countP_append, ih, List.countP_singleton]
    split
    · next h => have := of_decide_eq_true h; omega
    · next h => have := of_decide_eq_false (Bool.eq_false_iff.mpr h); omega

/-- Where the levels of a forest begin, if `A i` is how many nodes the first `i` nodes have brought
about: a branch is no longer than there are levels above its tip. -/
theorem length_le_of_isChain {A : Nat → Nat} (hA : Monotone A) {level : Nat → Nat}
    (hzero : level 0 = 0) {m : Nat} (hsucc : ∀ i < m, level (i + 1) = A (level i))
    {branch : List Nat}
    (hchain : branch.IsChain fun child parent => A parent ≤ child) {i : Nat} (hi : i ≤ m)
    (hhead : ∀ x ∈ branch.head?, x < level i) : branch.length ≤ i := by
  induction branch generalizing i with
  | nil => exact Nat.zero_le i
  | cons x rest ih =>
    have hx : x < level i := hhead x rfl
    cases i with
    | zero => omega
    | succ i =>
      refine Nat.succ_le_succ (ih hchain.tail (by omega) fun y hy => ?_)
      have hyx : A y ≤ x := hchain.rel_head? hy
      rw [hsucc i hi] at hx
      by_contra hle
      have := hA (show level i ≤ y by omega)
      omega

/-- To each node of a level leads a branch through all levels above. -/
theorem exists_isChain {A level : Nat → Nat} {m : Nat}
    (hsucc : ∀ i < m, level (i + 1) = A (level i))
    (hgrows : ∀ i < m, level i ≤ level (i + 1)) {i : Nat} (hi : i < m) {x : Nat}
    (hlo : level i ≤ x) (hhi : x < level (i + 1)) :
    ∃ rest, (x :: rest).IsChain (fun child parent => A parent ≤ child ∧ child < A (parent + 1)) ∧
      rest.length = i ∧ ∀ y ∈ rest, y < x := by
  induction i generalizing x with
  | zero => exact ⟨[], .singleton x, rfl, fun y hy => absurd hy List.not_mem_nil⟩
  | succ i ih =>
    have hi' : i < m := by omega
    have hgrow := hgrows i hi'
    -- The parent is the last node by which no more than `x` nodes had been brought about.
    obtain ⟨k, hk, hle, hlt⟩ := exists_last_before (P := fun k => A (level i + k) ≤ x)
      (by simpa [← hsucc i hi'] using hlo) (n := level (i + 1) - level i) (by
        rw [Nat.add_sub_cancel' hgrow, ← hsucc (i + 1) hi]
        omega)
    obtain ⟨rest, hchain, hlength, hbelow⟩ := ih hi' (x := level i + k) (by omega) (by omega)
    refine ⟨(level i + k) :: rest, .cons_cons ⟨hle, ?_⟩ hchain, by simp [hlength], ?_⟩
    · rw [← Nat.add_assoc] at hlt
      omega
    · intro y hy
      rcases List.mem_cons.mp hy with rfl | hy
      · omega
      · have := hbelow y hy
        omega

/-- How many actions were accepted by the time that a run of all jobs had performed `i` jobs. -/
def broughtBy (sys : JobSystem J W) (t : Trampoline J) (w : W) (n i : Nat) : Nat :=
  (t.acceptedBy ((steps sys .all n (start t w)).performed.take i) .action).length

theorem monotone_broughtBy (n : Nat) : Monotone (broughtBy sys t w n) := fun i j hij => by
  have hprefix : (steps sys .all n (start t w)).performed.take i
      <+: (steps sys .all n (start t w)).performed.take j := by
    rw [← Nat.min_eq_left hij, ← List.take_take]
    exact List.take_prefix _ _
  exact (prefix_acceptedBy hprefix .action).length_le

/-- How many jobs a run of all jobs has performed after a number of steps. -/
def reach (sys : JobSystem J W) (t : Trampoline J) (w : W) (i : Nat) : Nat :=
  (steps sys .all i (start t w)).performed.length

namespace ActsFor

variable {n rounds : Nat}

theorem phase_eq (ht : t.phase = .actions) (h : ActsFor sys t w n rounds) {i : Nat}
    (hi : i ≤ rounds) : ∀ e ∈ (steps sys .all i (start t w)).performed, e.phase = .actions :=
  (sequenced_steps sys .all ht w i).phase_eq_actions ((h.acting i).mpr hi)

theorem entriesIn_eq (ht : t.phase = .actions) (h : ActsFor sys t w n rounds) {i : Nat}
    (hi : i ≤ rounds) : (steps sys .all i (start t w)).entriesIn .actions
      = (steps sys .all i (start t w)).performed :=
  List.filter_eq_self.mpr fun e he => decide_eq_true (h.phase_eq ht hi e he)

theorem take_reach (h : ActsFor sys t w n rounds) {i : Nat} (hi : i ≤ rounds) :
    (steps sys .all n (start t w)).performed.take (reach sys t w i)
      = (steps sys .all i (start t w)).performed :=
  (List.prefix_iff_eq_take.mp (prefix_performed_of_le sys .all (by have := h.lt; omega) _)).symm

/-- The actions accepted by the end of a round are those of the rounds so far and of the next. -/
theorem broughtBy_reach (ht : t.phase = .actions) (h : ActsFor sys t w n rounds) {i : Nat}
    (hi : i ≤ rounds) : broughtBy sys t w n (reach sys t w i)
      = reach sys t w i + (steps sys .all i (start t w)).round.length := by
  have hk : (steps sys .all i (start t w)).phase.kind? = some .action := by
    rw [(h.acting i).mpr hi]
    rfl
  rw [broughtBy, h.take_reach hi, (accounted_steps sys .all ht w i).length_acceptedBy hk,
    performedIn, List.length_map]
  exact congrArg (List.length · + _) (h.entriesIn_eq ht hi)

theorem reach_succ (ht : t.phase = .actions) (h : ActsFor sys t w n rounds) {i : Nat}
    (hi : i < rounds) : reach sys t w (i + 1) = broughtBy sys t w n (reach sys t w i) := by
  have hk : (steps sys .all i (start t w)).phase.kind? = some .action := by
    rw [(h.acting i).mpr (Nat.le_of_lt hi)]
    rfl
  have hround : (steps sys .all i (start t w)).PerformsRound sys .all := step_of_round (h.busy i hi)
  obtain ⟨es, hes, hlength, -⟩ := hround.exists_entries hk
  rw [h.broughtBy_reach ht (Nat.le_of_lt hi), reach, steps_succ, hes, List.length_append, hlength,
    reach]

theorem reach_lt (ht : t.phase = .actions) (h : ActsFor sys t w n rounds) {i : Nat}
    (hi : i < rounds) : reach sys t w i < reach sys t w (i + 1) := by
  have := List.length_pos_iff.mpr (h.busy i hi)
  rw [h.reach_succ ht hi, h.broughtBy_reach ht (Nat.le_of_lt hi)]
  omega

/-- All accepted actions are performed in the rounds. -/
theorem length_acceptedBy (ht : t.phase = .actions) (h : ActsFor sys t w n rounds)
    (hdone : (steps sys .all n (start t w)).isDone = true) :
    (t.acceptedBy (steps sys .all n (start t w)).performed .action).length
      = reach sys t w rounds := by
  have hsettled := (Run.settles_steps ht w hdone).actions (.inl rfl)
  have hnext : (steps sys .all (rounds + 1) (start t w)).phase ≠ .actions := by
    rw [Ne, h.acting]
    omega
  obtain ⟨k, rfl⟩ := Nat.exists_eq_add_of_le (show rounds + 1 ≤ n from h.lt)
  have hentries := (entriesIn_actions_steps sys .all hnext k).2
  rw [← steps_add, steps_succ, step_of_round_nil h.idle] at hentries
  calc (t.acceptedBy (steps sys .all (rounds + 1 + k) (start t w)).performed .action).length
      = ((steps sys .all (rounds + 1 + k) (start t w)).performedIn .actions).length := by
        rw [hsettled]
        rfl
    _ = ((steps sys .all (rounds + 1 + k) (start t w)).entriesIn .actions).length :=
        List.length_map _
    _ = ((steps sys .all rounds (start t w)).entriesIn .actions).length := by rw [hentries]; rfl
    _ = reach sys t w rounds := by rw [h.entriesIn_eq ht (Nat.le_refl _)]; rfl

/-- Which action registered which, told by numbers. -/
theorem broughtBy_of_registered (ht : t.phase = .actions) {x y : Nat}
    (hreg : (steps sys .all n (start t w)).Registered t ⟨.action, y⟩ ⟨.action, x⟩) :
    broughtBy sys t w n y ≤ x := by
  obtain ⟨before, e, after, hlog, hphase, hnumber, hlo, -⟩ := hreg
  have hnumber : (before.filter (·.phase = .actions)).length = y := hnumber
  have hordered := (sequenced_steps sys .all ht w n).ordered
  rw [hlog, List.pairwise_append] at hordered
  -- What comes before an action in the log is an action.
  have hactions : before.filter (·.phase = .actions) = before := by
    refine List.filter_eq_self.mpr fun b hb => decide_eq_true (Phase.eq_actions_of_rank_le ?_)
    have := hordered.2.2 b hb e List.mem_cons_self
    rwa [hphase] at this
  rw [hactions] at hnumber
  rw [broughtBy, hlog, ← hnumber, List.take_left]
  exact hlo

theorem registered_of_broughtBy (ht : t.phase = .actions) (h : ActsFor sys t w n rounds) {x y : Nat}
    (hy : y < reach sys t w rounds) (hlo : broughtBy sys t w n y ≤ x)
    (hhi : x < broughtBy sys t w n (y + 1)) :
    (steps sys .all n (start t w)).Registered t ⟨.action, y⟩ ⟨.action, x⟩ := by
  have htake := h.take_reach (Nat.le_refl rounds)
  have hlt : y < (steps sys .all n (start t w)).performed.length := by
    have := congrArg List.length htake
    rw [List.length_take] at this
    rw [reach] at hy this
    omega
  have hactions :
      ∀ e ∈ (steps sys .all n (start t w)).performed.take (y + 1), e.phase = .actions := by
    intro e he
    refine h.phase_eq ht (Nat.le_refl rounds) e ?_
    rw [← htake]
    exact (List.take_prefix_take_left (show y + 1 ≤ _ from hy)).subset he
  have hsplit := List.take_append_getElem hlt
  have hfilter : ((steps sys .all n (start t w)).performed.take y).filter (·.phase = .actions)
      = (steps sys .all n (start t w)).performed.take y := by
    refine List.filter_eq_self.mpr fun e he => decide_eq_true (hactions e ?_)
    rw [← hsplit]
    exact List.mem_append_left _ he
  refine ⟨(steps sys .all n (start t w)).performed.take y,
    (steps sys .all n (start t w)).performed[y],
    (steps sys .all n (start t w)).performed.drop (y + 1), ?_, hactions _ ?_, ?_, hlo, ?_⟩
  · rw [← List.drop_eq_getElem_cons hlt, List.take_append_drop]
  · rw [← hsplit]
    exact List.mem_append_right _ List.mem_cons_self
  · refine (congrArg List.length hfilter).trans ?_
    rw [List.length_take]
    exact Nat.min_eq_left (Nat.le_of_lt hlt)
  · rw [hsplit]
    exact hhi

/-- All rounds of actions are counted. -/
theorem actionRounds_eq (h : ActsFor sys t w n rounds) : actionRounds sys t w n = rounds := by
  have hcount (i : Nat) : (decide ((steps sys .all i (start t w)).phase = .actions) &&
      !(steps sys .all i (start t w)).round.isEmpty) = decide (i < rounds) := by
    rcases Nat.lt_trichotomy i rounds with hi | rfl | hi
    · have hbusy := h.busy i hi
      simp [(h.acting i).mpr (Nat.le_of_lt hi), hi, hbusy]
    · simp [h.idle]
    · have hne : (steps sys .all i (start t w)).phase ≠ .actions := fun hp => by
        have := (h.acting i).mp hp
        omega
      simp [hne, Nat.not_lt_of_lt hi]
  have hlt := h.lt
  rw [actionRounds, List.countP_congr fun i _ => by rw [hcount i], countP_range_lt,
    Nat.min_eq_left (Nat.le_of_lt hlt)]

/-- No branch has more nodes than there are rounds. -/
theorem length_le (ht : t.phase = .actions) (h : ActsFor sys t w n rounds)
    (hdone : (steps sys .all n (start t w)).isDone = true) {branch : List Nat}
    (hbranch : (steps sys .all n (start t w)).IsBranch t branch) : branch.length ≤ rounds := by
  refine length_le_of_isChain (monotone_broughtBy n) (show reach sys t w 0 = 0 from rfl)
    (fun i hi => h.reach_succ ht hi)
    (hbranch.1.imp fun _ _ => broughtBy_of_registered ht) (Nat.le_refl rounds) fun x hx => ?_
  rw [← h.length_acceptedBy ht hdone]
  exact hbranch.2 x (List.mem_of_mem_head? hx)

/-- The last round has a node, and a branch leads to it through all rounds. -/
theorem exists_isBranch (ht : t.phase = .actions) (h : ActsFor sys t w n rounds)
    (hdone : (steps sys .all n (start t w)).isDone = true) :
    ∃ branch, (steps sys .all n (start t w)).IsBranch t branch ∧ branch.length = rounds := by
  cases rounds with
  | zero => exact ⟨[], ⟨.nil, fun i hi => absurd hi List.not_mem_nil⟩, rfl⟩
  | succ last =>
    obtain ⟨rest, hchain, hlength, hbelow⟩ := exists_isChain (A := broughtBy sys t w n)
      (fun i hi => h.reach_succ ht hi)
      (fun i hi => Nat.le_of_lt (h.reach_lt ht hi)) (Nat.lt_succ_self last) (Nat.le_refl _)
      (h.reach_lt ht (Nat.lt_succ_self last))
    have hwithin : ∀ y ∈ reach sys t w last :: rest, y < reach sys t w (last + 1) := by
      intro y hy
      have hlast := h.reach_lt ht (Nat.lt_succ_self last)
      rcases List.mem_cons.mp hy with rfl | hy
      · exact hlast
      · exact Nat.lt_trans (hbelow y hy) hlast
    refine ⟨reach sys t w last :: rest, ⟨?_, ?_⟩, by rw [List.length_cons, hlength]⟩
    · exact hchain.imp_of_mem_imp fun x y _ hy hxy =>
        h.registered_of_broughtBy ht (hwithin y hy) hxy.1 hxy.2
    · rw [h.length_acceptedBy ht hdone]
      exact hwithin

end ActsFor

/-- **There are as many rounds of actions as nodes on the longest branch of accepted actions.** -/
theorem isGreatest_length (ht : t.phase = .actions) {n : Nat}
    (hdone : (steps sys .all n (start t w)).isDone = true) :
    IsGreatest {l | ∃ branch, (steps sys .all n (start t w)).IsBranch t branch ∧ branch.length = l}
      (actionRounds sys t w n) := by
  obtain ⟨rounds, h⟩ := exists_actsFor ht hdone
  rw [h.actionRounds_eq]
  refine ⟨h.exists_isBranch ht hdone, ?_⟩
  rintro l ⟨branch, hbranch, rfl⟩
  exact h.length_le ht hdone hbranch

/-! ### Whole runs -/

/-- What becomes of the runs of a trampoline on which jobs are registered, in both modes. -/
structure ComesToRest (sys : JobSystem J W) (t : Trampoline J) (w : W) : Prop where
  /-- Nodes have the numbers in which jobs are performed: what is performed in a phase are the first
  of the jobs accepted for it. -/
  numbered : ∀ mode n k, (steps sys mode n (start t w)).performedIn k.phase
    <+: t.acceptedBy (steps sys mode n (start t w)).performed k
  /-- Jobs which register no infinite chain, whatever they find, make a forest without one. -/
  grounded : (∀ k, ∀ j ∈ t.queue k, Acc sys.MayRegister j) →
    ∀ mode, WellFounded (ChildOf sys mode t w)
  /-- If the forest has no infinite branch, the run comes to its end, and nothing waits any more. -/
  ends : ∀ mode, WellFounded (ChildOf sys mode t w) →
    ∃ (n : Nat) (hacc : Acc (StepOf sys mode) (start t w)),
      (start t w).toEnd sys mode hacc = steps sys mode n (start t w) ∧
      (steps sys mode n (start t w)).phase = .completed ∧
      ∀ k, (steps sys mode n (start t w)).trampoline.queue k = []
  /-- A run of all jobs has as many rounds of actions as there are nodes on the longest branch of
  accepted actions. -/
  height : ∀ n, (steps sys .all n (start t w)).phase = .completed →
    IsGreatest {l | ∃ branch, (steps sys .all n (start t w)).IsBranch t branch ∧ branch.length = l}
      (actionRounds sys t w n)

/-- **Every run whose forest has no infinite branch comes to rest**, and its rounds of actions are
the levels of the forest. -/
theorem comesToRest (ht : t.phase = .actions) (w : W) : ComesToRest sys t w := by
  constructor
  case numbered => exact fun mode n k => (accounted_steps sys mode ht w n).prefix_performedIn k
  case grounded => exact wellFounded_childOf sys w ht
  case ends =>
    intro mode hwf
    obtain ⟨_, hover⟩ := exists_isDone ht hwf
    have hacc := acc_stepOf_of_isDone hover
    obtain ⟨n, hn⟩ := toEnd_eq_steps hacc
    have hdone : (steps sys mode n (start t w)).isDone = true :=
      hn ▸ (toEnd_induction (P := fun _ => True) (fun _ _ _ => trivial) hacc trivial).2
    have hphase := phase_of_isDone hdone
    refine ⟨n, hacc, hn, hphase, fun k => ?_⟩
    have hidle := (accounted_steps sys mode ht w n).idle k (by rw [hphase]; cases k <;> rfl)
    rwa [waiting_nil] at hidle
  case height => exact fun n hphase => isGreatest_length ht (by simp [isDone, hphase])

/-- A job that registers one that registers `noting`, and `noting` itself to close. -/
def planting : Deed JobCommand JobCommand.Answer :=
  .mk (.register .action (.mk (.register .action noting fun _ => .finish .succeeded)) fun _ =>
    .register .closing noting fun _ => .finish .succeeded)

/-- A trampoline on which one of two actions has a child, and a grandchild. -/
def terraced : Trampoline Placed := ⟨.actions, true, [⟨0, noting⟩, ⟨0, planting⟩], [], [], []⟩

theorem comesToRest_terraced :
    terraced.phase = .actions ∧
      WellFounded (ChildOf Placed.system .all terraced ⟨#[Memory.empty], []⟩) ∧
      (steps Placed.system .all 7 (start terraced ⟨#[Memory.empty], []⟩)).phase = .completed ∧
      actionRounds Placed.system terraced ⟨#[Memory.empty], []⟩ 7 = 3 ∧
      ComesToRest Placed.system terraced ⟨#[Memory.empty], []⟩ :=
  ⟨rfl, (comesToRest rfl _).grounded (fun _ j _ => Subrelation.accessible
    JobSystem.MayRegister.below (Placed.wellFounded_below.apply j)) .all, rfl, rfl,
    comesToRest rfl _⟩

end Run

end PartyGraph
