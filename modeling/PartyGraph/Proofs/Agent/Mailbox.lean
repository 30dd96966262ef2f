import PartyGraph.Agent.Basic

/-!
# What the mailbox of an agent holds

Of all messages two sorts matter to those who reason about histories: jobs, which wait in the order
in which they were posted, and requests to stop, of which there is one at most. This module follows
both through everything that happens to an agent.

## Main definitions

* `Agent.jobs`: the jobs that wait.
* `Agent.stopsLeft`: a bound on the stops to come.
* `Agent.Undisturbed`: what the timer and requests to stop leave alone.
* `Agent.Takes`, `Agent.Exits`: the two turns of the loop.

## Main results

* `Agent.takes_of_take`, `Agent.exits_of_take`: what a turn does.
* `Agent.undisturbed_tick`, `Agent.undisturbed_sendStop`: neither touches the jobs or the loop.
* `Agent.stopsLeft_tryStart_le`, `Agent.stopsLeft_finish_le`: the bound does not grow.
-/

namespace PartyGraph

namespace Agent

variable {J : Type}

/-! ### Messages -/

/-- The jobs that wait in the mailbox, the next one first. -/
def jobs (a : Agent J) : List J := a.mailbox.filterMap Message.job?

@[simp] theorem loop_send (a : Agent J) (m : Message J) : (a.send m).loop = a.loop := by
  rw [send]
  split <;> rfl

@[simp] theorem startAttempted_send (a : Agent J) (m : Message J) :
    (a.send m).startAttempted = a.startAttempted := by
  rw [send]
  split <;> rfl

theorem jobs_send_of_open {a : Agent J} (h : a.isOpen = true) (m : Message J) :
    (a.send m).jobs = a.jobs ++ m.job?.toList := by
  cases m <;> simp [send, h, jobs, Message.job?, List.filterMap_append]

/-- A message that is no job leaves the jobs as they are, wherever it goes. -/
theorem jobs_send_of_job?_eq_none (a : Agent J) {m : Message J} (h : m.job? = none) :
    (a.send m).jobs = a.jobs := by
  rw [send]
  split
  · simp [jobs, List.filterMap_append, h]
  · rfl

theorem new_eq_ok {name : String} {period : Option Nat} {a : Agent J}
    (h : new name period = .ok a) :
    a = ⟨name, period, .waitingForStart, false, [], .absent, false, 0, 0, none, .asleep,
      false⟩ := by
  unfold new at h
  split at h
  · exact (Except.ok.inj h).symm
  · split at h
    · cases h
    · exact (Except.ok.inj h).symm

/-! ### Stops -/

/-- Whether a message asks for the stop. -/
def Message.isStop : Message J → Bool
  | stop => true
  | _ => false

/-- A bound on the stops that the agent can still come to handle: those that wait or are about to be
sent, and one more as long as the agent runs or may be started. -/
def stopsLeft (a : Agent J) : Nat :=
  a.mailbox.countP Message.isStop + (if a.stopping then 1 else 0)
    + (if a.status = .running then 1 else 0) + (if a.startAttempted then 0 else 1)

theorem stopsLeft_send_le (a : Agent J) {m : Message J} (h : m.isStop = false) :
    (a.send m).stopsLeft ≤ a.stopsLeft := by
  rw [send]
  split
  · simp [stopsLeft, List.countP_append, h]
  · exact Nat.le_refl _

theorem stopsLeft_tryStart_le (a : Agent J) (approved : Bool) (now : Nat) :
    (a.tryStart approved now).stopsLeft ≤ a.stopsLeft := by
  rw [tryStart]
  split
  · exact Nat.le_refl _
  · next ha =>
    split
    · simp [stopsLeft, ha]
    · simp [stopsLeft, ha]

/-! ### Timer and stop -/

/-- Loop and jobs of `a` are as they were when it is `a'`, and no stop has been asked for that could
not be asked for before. -/
structure Undisturbed (a a' : Agent J) : Prop where
  loop : a'.loop = a.loop
  jobs : a'.jobs = a.jobs
  attempted : a'.startAttempted = a.startAttempted
  stopsLeft : a'.stopsLeft ≤ a.stopsLeft

namespace Undisturbed

theorem of_eq {a a' : Agent J} (mailbox : a'.mailbox = a.mailbox) (loop : a'.loop = a.loop)
    (attempted : a'.startAttempted = a.startAttempted) (status : a'.status = a.status)
    (stopping : a'.stopping = a.stopping) : Undisturbed a a' :=
  ⟨loop, by rw [Agent.jobs, mailbox, Agent.jobs], attempted,
    Nat.le_of_eq (by rw [Agent.stopsLeft, mailbox, attempted, status, stopping, Agent.stopsLeft])⟩

theorem refl (a : Agent J) : Undisturbed a a := .of_eq rfl rfl rfl rfl rfl

theorem trans {a a' a'' : Agent J} (h : Undisturbed a a') (h' : Undisturbed a' a'') :
    Undisturbed a a'' :=
  ⟨h'.loop.trans h.loop, h'.jobs.trans h.jobs, h'.attempted.trans h.attempted,
    Nat.le_trans h'.stopsLeft h.stopsLeft⟩

/-- A message that is neither a job nor a request to stop may come in. -/
theorem send {a b : Agent J} (h : Undisturbed a b) {m : Message J} (hjob : m.job? = none)
    (hstop : m.isStop = false) : Undisturbed a (b.send m) :=
  h.trans ⟨loop_send .., jobs_send_of_job?_eq_none b hjob, startAttempted_send ..,
    stopsLeft_send_le b hstop⟩

end Undisturbed

theorem undisturbed_wake (a : Agent J) : Undisturbed a a.wake := by
  rw [wake]
  split <;> exact .of_eq rfl rfl rfl rfl rfl

theorem undisturbed_strike (a : Agent J) : Undisturbed a a.strike := by
  rw [strike]
  split
  · dsimp only
    split <;> exact .of_eq rfl rfl rfl rfl rfl
  · exact .refl a

theorem undisturbed_settle (a : Agent J) : Undisturbed a a.settle := by
  rw [settle]
  split
  · have working : Undisturbed a { a with timer := .awake } := .of_eq rfl rfl rfl rfl rfl
    split
    · exact working.send rfl rfl
    · exact .of_eq rfl rfl rfl rfl rfl
  · exact .of_eq rfl rfl rfl rfl rfl
  · exact .refl a

theorem undisturbed_doze (a : Agent J) : Undisturbed a a.doze := by
  rw [doze]
  split <;> exact .of_eq rfl rfl rfl rfl rfl

theorem undisturbed_tick (a : Agent J) : Undisturbed a a.tick :=
  (((undisturbed_wake a).trans (undisturbed_strike _)).trans (undisturbed_settle _)).trans
    (undisturbed_doze _)

theorem undisturbed_halt (a : Agent J) : Undisturbed a a.halt := by
  rw [halt]
  split
  · next h => exact ⟨rfl, rfl, rfl, by cases hs : a.stopping <;> simp [stopsLeft, h, hs]⟩
  · exact .refl a

theorem undisturbed_sendHalt (a : Agent J) : Undisturbed a a.sendHalt := by
  rw [sendHalt]
  split
  · next h =>
    refine ⟨loop_send .., jobs_send_of_job?_eq_none _ rfl, startAttempted_send .., ?_⟩
    rw [send]
    split
    · simp [stopsLeft, h, List.countP_append, Message.isStop]
    · simp [stopsLeft, h]
  · exact .refl a

theorem undisturbed_sendStop (a : Agent J) : Undisturbed a a.sendStop.2 := by
  rw [sendStop]
  split
  · exact (undisturbed_halt a).trans (undisturbed_sendHalt _)
  · exact .refl a

/-! ### Turns of the loop -/

/-- The job of a call, if it is one. -/
def Call.job? : Call J → Option J
  | job j => some j
  | _ => none

/-- Whether a call is that at the end. -/
def Call.isStop : Call J → Bool
  | stop => true
  | _ => false

/-- The loop of `a` takes a message and `a'` calls the handler with `c`. -/
structure Takes (a : Agent J) (c : Call J) (a' : Agent J) : Prop where
  before : a.loop = .fresh ∧ c = .start ∨ a.loop = .waiting ∧ c ≠ .start
  loop : a'.loop = .calling c
  jobs : a.jobs = c.job?.toList ++ a'.jobs
  attempted : a'.startAttempted = a.startAttempted
  stopsLeft : a.stopsLeft = a'.stopsLeft + if c.isStop then 1 else 0
  status : a'.status = a.status

theorem takes_of_take {a a' : Agent J} {c : Call J} (h : a.take = some (.call c, a')) :
    a.Takes c a' := by
  rw [take] at h
  split at h
  · next hl =>
    cases h
    exact ⟨.inl ⟨hl, rfl⟩, rfl, rfl, rfl, rfl, rfl⟩
  · next j rest hl hm =>
    cases h
    exact ⟨.inr ⟨hl, by simp⟩, rfl, by simp [jobs, hm, Message.job?, Call.job?], rfl,
      by simp [stopsLeft, hm, Message.isStop, Call.isStop], rfl⟩
  · next rest hl hm =>
    cases h
    exact ⟨.inr ⟨hl, by simp⟩, rfl,
      by simp [jobs, hm, List.filterMap_cons, Message.job?, Call.job?], rfl,
      by simp [stopsLeft, hm, Message.isStop, Call.isStop], rfl⟩
  · next rest hl hm =>
    cases h
    exact ⟨.inr ⟨hl, by simp⟩, rfl,
      by simp [jobs, hm, List.filterMap_cons, Message.job?, Call.job?], rfl,
      by simp [stopsLeft, hm, List.countP_cons, Message.isStop, Call.isStop]; omega, rfl⟩
  · cases h
  · cases h

/-- The loop of `a` leaves, and `a'` has neither a loop nor a mailbox. -/
structure Exits (a : Agent J) (dropped : List J) (a' : Agent J) : Prop where
  before : a.loop = .waiting
  loop : a'.loop = .exited
  dropped : dropped = a.jobs
  jobs : a'.jobs = []
  attempted : a'.startAttempted = a.startAttempted
  stopsLeft : a'.stopsLeft ≤ a.stopsLeft
  status : a'.status = a.status

theorem exits_of_take {a a' : Agent J} {dropped : List J}
    (h : a.take = some (.exit dropped, a')) : a.Exits dropped a' := by
  rw [take] at h
  split at h
  · cases h
  · cases h
  · cases h
  · cases h
  · next rest hl hm =>
    cases h
    exact ⟨hl, rfl, by simp [Agent.jobs, hm, List.filterMap_cons, Message.job?], rfl, rfl,
      by simp [Agent.stopsLeft], rfl⟩
  · cases h

@[simp] theorem jobs_finish (a : Agent J) : a.finish.jobs = a.jobs := by
  rw [finish]
  split
  · rfl
  · exact jobs_send_of_job?_eq_none _ rfl
  · rfl
  · rfl

@[simp] theorem startAttempted_finish (a : Agent J) :
    a.finish.startAttempted = a.startAttempted := by
  rw [finish]
  split
  · rfl
  · exact startAttempted_send ..
  · rfl
  · rfl

theorem stopsLeft_finish_le (a : Agent J) : a.finish.stopsLeft ≤ a.stopsLeft := by
  rw [finish]
  split
  · exact Nat.le_refl _
  · exact stopsLeft_send_le _ rfl
  · exact Nat.le_refl _
  · exact Nat.le_refl _

theorem loop_finish {a : Agent J} {c : Call J} (h : a.loop = .calling c) :
    a.finish.loop = .waiting := by
  cases c <;> simp [finish, h]

/-- An agent that was started keeps its loop and its jobs when it is let go. -/
theorem undisturbed_release {a : Agent J} (h : a.loop ≠ .absent) : Undisturbed a a.release := by
  have abandoned : Undisturbed a a.abandon := by
    rw [abandon]
    split
    · next hl => exact absurd hl h
    · have halted : Undisturbed a.halt { a.halt with due := none } := .of_eq rfl rfl rfl rfl rfl
      exact (undisturbed_halt a).trans halted
  exact abandoned.trans (undisturbed_sendHalt _)

/-- One that was not is gone with its mailbox. -/
theorem release_of_absent {a : Agent J} (h : a.loop = .absent) :
    a.release.loop = .exited ∧ a.release.jobs = [] ∧
      a.release.startAttempted = a.startAttempted := by
  have abandoned : a.abandon = { a with due := none, mailbox := [], loop := .exited } := by
    rw [abandon, h]
  have sent := undisturbed_sendHalt a.abandon
  rw [abandoned] at sent
  rw [release, abandoned]
  exact ⟨sent.loop, sent.jobs, sent.attempted⟩

theorem stopsLeft_release_le (a : Agent J) : a.release.stopsLeft ≤ a.stopsLeft := by
  by_cases h : a.loop = .absent
  · have sent := (undisturbed_sendHalt a.abandon).stopsLeft
    refine Nat.le_trans sent ?_
    rw [abandon, h]
    simp [stopsLeft]
  · exact (undisturbed_release h).stopsLeft

end Agent

end PartyGraph
