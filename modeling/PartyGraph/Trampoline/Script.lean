import PartyGraph.Trampoline.Basic

/-!
# Scripts

What a job does when it runs is a script: it registers further jobs on the trampoline that runs
it, looks at that trampoline and gives commands to the world around it, in any order and each
depending on the answers to those before, and then it ends well or badly. A script is finite, but
the jobs that it registers may be of any type `J`, and a job may register its like without end.

## Main definitions

* `Ending`: how a job ends.
* `Script`: what a job does.
* `Registration`: a registration that a job tried.
* `Script.run`: its effect on the trampoline and the world, and its registrations.
* `Script.Mentions`: the jobs that a script may register.

## Main results

* `mem_queue_run`: a script queues no job but those that it mentions.
-/

namespace PartyGraph

/-- How a job ends. -/
inductive Ending where
  | succeeded
  | declined
  | failed (e : ActionError)
  | panicked (p : Payload)

namespace Ending

instance : Inhabited Ending := ⟨succeeded⟩

/-- The failure, if the job failed. -/
def failure? : Ending → Option ActionError
  | succeeded => none
  | declined => some .returnedFalse
  | failed e => some e
  | panicked p => some (.panicked p.message)

/-- What the job panicked with, if it did. -/
def panic? : Ending → Option Payload
  | panicked p => some p
  | _ => none

/-- The ending of a job that has come to several ends. The first panic among them is its own;
without one it fails with all their failures, even when there are none. -/
def aggregate (ends : List Ending) : Ending :=
  match ends.findSome? panic? with
  | some p => panicked p
  | none => failed (.aggregate (ends.filterMap failure?))

/-- The ending of a job that tells no more than whether it succeeded. A panic stays one. -/
def gentle : Ending → Ending
  | failed _ => declined
  | e => e

end Ending

/-- What a job does: `C` are the commands to the world and `A` their answers. -/
inductive Script (J C : Type) (A : C → Type) : Type where
  | finish (ending : Ending)
  | register (kind : JobKind) (job : J) (next : Option TrampolineError → Script J C A)
  | look (next : Trampoline.View → Script J C A)
  | ask (command : C) (next : A command → Script J C A)

/-- A registration that a job tried, with the refusal if it was refused. -/
structure Registration (J : Type) where
  kind : JobKind
  job : J
  refusal : Option TrampolineError

/-- Whether the job was queued. -/
def Registration.isAccepted {J : Type} (g : Registration J) : Bool := g.refusal.isNone

namespace Script

variable {J K C D W : Type} {A : C → Type} {B : D → Type}

/-- What a script leaves behind. -/
structure Result (J W : Type) where
  ending : Ending
  trampoline : Trampoline J
  world : W
  /-- The registrations that it tried, in order. -/
  registrations : List (Registration J)

/-- The result of a script that tries a registration first. -/
def Result.after (g : Registration J) (r : Result J W) : Result J W :=
  { r with registrations := g :: r.registrations }

@[simp] theorem Result.trampoline_after (g : Registration J) (r : Result J W) :
    (r.after g).trampoline = r.trampoline := rfl

/-- Runs a script, where `answer` is how the world takes commands. -/
def run (answer : (c : C) → W → A c × W) : Script J C A → Trampoline J → W → Result J W
  | finish e, t, w => ⟨e, t, w, []⟩
  | register kind job next, t, w =>
    match t.register kind job with
    | .ok t' => ((next none).run answer t' w).after ⟨kind, job, none⟩
    | .error e => ((next (some e)).run answer t w).after ⟨kind, job, some e⟩
  | look next, t, w => (next t.view).run answer t w
  | ask c next, t, w =>
    let (a, w') := answer c w
    (next a).run answer t w'

/-- The same script over other jobs and commands. -/
def map (job : J → K) (command : C → D) (back : (c : C) → B (command c) → A c) :
    Script J C A → Script K D B
  | finish e => finish e
  | register kind j next => register kind (job j) fun r => (next r).map job command back
  | look next => look fun v => (next v).map job command back
  | ask c next => ask (command c) fun b => (next (back c b)).map job command back

/-- The jobs that a script may register, whatever it is answered. -/
inductive Mentions (k : J) : Script J C A → Prop where
  | here {kind next} : Mentions k (register kind k next)
  | after {kind j next} (r : Option TrampolineError) (h : Mentions k (next r)) :
    Mentions k (register kind j next)
  | look {next} (v : Trampoline.View) (h : Mentions k (next v)) : Mentions k (look next)
  | ask {c next} (a : A c) (h : Mentions k (next a)) : Mentions k (ask c next)

/-- A script over other jobs mentions the counterparts of the jobs of the first. -/
theorem mentions_map {job : J → K}
    {command : C → D} {back : (c : C) → B (command c) → A c} {s : Script J C A} {k : K}
    (h : (s.map job command back).Mentions k) : ∃ j, s.Mentions j ∧ job j = k := by
  induction s with
  | finish e => cases h
  | register kind j next ih =>
    cases h with
    | here => exact ⟨j, .here, rfl⟩
    | after r h =>
      obtain ⟨i, hi, hik⟩ := ih r h
      exact ⟨i, .after r hi, hik⟩
  | look next ih =>
    cases h with
    | look v h =>
      obtain ⟨i, hi, hik⟩ := ih v h
      exact ⟨i, .look v hi, hik⟩
  | ask c next ih =>
    cases h with
    | ask a h =>
      obtain ⟨i, hi, hik⟩ := ih (back c a) h
      exact ⟨i, .ask _ hi, hik⟩

theorem mem_queue_register {t t' : Trampoline J} {kind : JobKind} {job : J}
    (h : t.register kind job = .ok t') {k : JobKind} {j : J} (hj : j ∈ t'.queue k) :
    j ∈ t.queue k ∨ j = job := by
  unfold Trampoline.register at h
  split at h
  · cases h
    by_cases hk : k = kind
    · subst hk
      simpa using hj
    · rw [Trampoline.queue_withQueue_of_ne t hk] at hj
      exact .inl hj
  · cases h

/-- A script queues no job but those that it mentions. -/
theorem mem_queue_run {answer : (c : C) → W → A c × W} {s : Script J C A} {t : Trampoline J}
    {w : W} {k : JobKind} {j : J} (h : j ∈ (s.run answer t w).trampoline.queue k) :
    j ∈ t.queue k ∨ s.Mentions j := by
  induction s generalizing t w with
  | finish e => exact .inl h
  | register kind job next ih =>
    unfold run at h
    split at h
    · next t' ht =>
      rcases ih _ h with h | h
      · rcases mem_queue_register ht h with h | rfl
        · exact .inl h
        · exact .inr .here
      · exact .inr (.after _ h)
    · rcases ih _ h with h | h
      · exact .inl h
      · exact .inr (.after _ h)
  | look next ih =>
    rcases ih _ h with h | h
    · exact .inl h
    · exact .inr (.look _ h)
  | ask c next ih =>
    rcases ih _ h with h | h
    · exact .inl h
    · exact .inr (.ask _ h)

theorem phase_register {t t' : Trampoline J} {kind : JobKind} {job : J}
    (h : t.register kind job = .ok t') : t'.phase = t.phase := by
  unfold Trampoline.register at h
  split at h
  · cases h
    exact Trampoline.phase_withQueue ..
  · cases h

/-- A script does not move the trampoline to another phase. -/
@[simp] theorem phase_run {answer : (c : C) → W → A c × W} {s : Script J C A}
    {t : Trampoline J} {w : W} : (s.run answer t w).trampoline.phase = t.phase := by
  induction s generalizing t w with
  | finish e => rfl
  | register kind job next ih =>
    unfold run
    split
    · next t' ht => rw [Result.trampoline_after, ih, phase_register ht]
    · rw [Result.trampoline_after, ih]
  | look next ih => exact ih _
  | ask c next ih => exact ih _

end Script

end PartyGraph
