import Mathlib.Data.List.TakeWhile
import PartyGraph.Proofs.Agent.Heartbeats
import PartyGraph.Proofs.Since

/-!
# What is handled after the stop

The call at the stop is meant to be the last one of a loop, and the loop cannot leave before that
call is done. It leaves at the close message, though, which is put into the mailbox only then, and
whatever was accepted between the stop message and the close message stands before it.

So the handler is called again after the stop exactly for these messages. They are jobs, and one of
them may be a heartbeat if the timer was at work when it was asked to end. A stop is the last call
if and only if nothing came in between, which neither the callers nor the handler can know.

## Main definitions

* `Agent.stragglers`: the messages between the stop message and the close message.
* `Agent.Closing`: the stop is the last call until the close message is accepted.
* `Agent.AfterStop`: what is handled after the stop.

## Main results

* `Agent.Closing.waiting`: until the close message is accepted, the stragglers all wait.
* `Agent.beatsAmong_stragglers_le`: one of them at most is a heartbeat.
-/

namespace PartyGraph

namespace Agent

variable {J : Type}

/-- Whether a message lets the loop leave. -/
def Message.isClose : Message J → Bool
  | close => true
  | _ => false

/-- The messages between the stop message and the close message. -/
def stragglers (acc : List (Message J)) : List (Message J) :=
  (since Message.isStop acc).takeWhile fun w => !w.isClose

/-! ### Calls and messages after the stop -/

/-- The messages handled after the stop are those behind the request to stop. -/
theorem served_since (cs : List (Call J)) :
    served (since Call.isStop cs) = since Message.isStop (served cs) := by
  induction cs with
  | nil => rfl
  | cons c cs ih =>
    cases c with
    | stop => rfl
    | start | job | heartbeat => exact ih

theorem any_isStop_served (cs : List (Call J)) :
    (served cs).any Message.isStop = cs.any Call.isStop := by
  induction cs with
  | nil => rfl
  | cons c cs ih => cases c <;> first | rfl | exact ih

theorem isClose_of_mem_served {cs : List (Call J)} {w : Message J} (h : w ∈ served cs) :
    w.isClose = false := by
  cases w with
  | close => exact absurd h (close_not_mem_served cs)
  | job | heartbeat | stop => rfl

/-- What was handled comes before the close message. -/
theorem takeWhile_served_append (cs : List (Call J)) (rest : List (Message J)) :
    (served cs ++ rest).takeWhile (fun w => !w.isClose) =
      served cs ++ rest.takeWhile fun w => !w.isClose :=
  List.takeWhile_append_of_pos fun w hw => by simp [isClose_of_mem_served hw]

theorem any_isStop_eq_false_iff (ms : List (Message J)) :
    ms.any Message.isStop = false ↔ ms.countP Message.isStop = 0 := by
  rw [List.any_eq_false, List.countP_eq_zero]

/-! ### Before the close message -/

/-- Whether the stop is the last call of an agent as long as no close message was accepted. -/
def Closing (a : Agent J) (cs : List (Call J)) (acc : List (Message J)) : Prop :=
  .close ∉ acc → .stop ∉ cs ∨ a.loop = .calling .stop ∧ since Call.isStop cs = []

section Closing

variable {a a' : Agent J} {m : Move J} {c? : Option (Call J)} {new : List (Message J)}
variable {cs : List (Call J)} {acc : List (Message J)}

theorem any_isStop_calls (cs : List (Call J)) : cs.any Call.isStop = true ↔ .stop ∈ cs := by
  rw [List.any_eq_true]
  constructor
  · rintro ⟨c, hc, hstop⟩
    cases c with
    | stop => exact hc
    | start | job | heartbeat => cases hstop
  · exact fun h => ⟨_, h, rfl⟩

/-- What a move adds. -/
theorem Closing.effect (h : Closing a cs acc) (hk : a.Kept cs acc) (he : Effect a m a' c? new) :
    Closing a' (cs ++ c?.toList) (acc ++ new) := by
  intro hclose
  have before : .close ∉ acc := fun hmem => hclose (List.mem_append_left _ hmem)
  have idle (hl : a.loop ≠ .calling .stop) : .stop ∉ cs :=
    (h before).resolve_right fun hstop => hl hstop.1
  cases he with
  | rests loop =>
    rw [Option.toList_none, List.append_nil]
    rcases loop with loop | ⟨c, hl, hc, -⟩
    · exact loop ▸ h before
    · exact .inl (idle (by simpa [hl] using hc))
  | sends _ _ _ loop | halts loop | stops _ loop =>
    rw [Option.toList_none, List.append_nil]
    exact loop ▸ h before
  | closes => simp at hclose
  | starts _ unattempted =>
    refine .inl ?_
    cases hk.stage with
    | absent _ _ calls | gone _ _ calls => simp [calls]
    | fresh _ _ ha | underWay _ _ ha | left _ _ ha => simp [unattempted] at ha
  | begins hl =>
    refine .inl ?_
    simpa using idle (by simp [hl])
  | handles c w hl loop =>
    have unstopped := idle (by simp [hl])
    cases c with
    | stop =>
      refine .inr ⟨loop, ?_⟩
      have hnone : cs.any Call.isStop = false := by
        rwa [← Bool.not_eq_true, any_isStop_calls]
      exact since_append_cons hnone rfl
    | start | job | heartbeat => exact .inl (by simpa using unstopped)
  | leaves _ hl | vanishes _ hl =>
    rw [Option.toList_none, List.append_nil]
    exact .inl (idle (by simp [hl]))

/-- Until the close message is accepted, the messages behind the request to stop all wait. -/
theorem Closing.waiting (h : Closing a cs acc) (hk : a.Kept cs acc) (hclose : .close ∉ acc) :
    since Message.isStop acc <:+ a.mailbox := by
  cases hk.stage with
  | absent _ _ _ mailbox | fresh _ _ _ _ mailbox => exact mailbox ▸ since_suffix ..
  | underWay _ _ _ _ mailbox =>
    rw [mailbox]
    cases hany : cs.any Call.isStop with
    | false =>
      rw [since_append_of_not_any ((any_isStop_served cs).trans hany)]
      exact since_suffix ..
    | true =>
      obtain ⟨-, hlast⟩ := (h hclose).resolve_left (not_not_intro ((any_isStop_calls cs).mp hany))
      rw [since_append ((any_isStop_served cs).trans hany), ← served_since, hlast]
      exact List.suffix_refl _
  | left _ _ _ _ mailbox =>
    obtain ⟨lost, rfl⟩ := mailbox
    simp at hclose
  | gone _ status =>
    have hnone := hk.stops
    rw [status] at hnone
    rw [since_of_not_any ((any_isStop_eq_false_iff acc).mpr (Nat.add_eq_zero_iff.mp hnone).1)]
    exact List.nil_suffix

end Closing

theorem closing_play {name : String} {period : Option Nat} {a : Agent J}
    (ha : new name period = .ok a) {moves : List (Move J)} (ho : Owned moves) :
    Closing (a.play moves).2 (calls (a.play moves).1) (a.accepted moves) := by
  induction moves using List.reverseRecOn with
  | nil => exact fun _ => .inl List.not_mem_nil
  | append_singleton moves m ih =>
    have ho := (List.pairwise_append.mp ho).1
    rw [play_concat, calls_concat, accepted_concat]
    exact (ih ho).effect (kept_play ha ho) (effect_move _ m)

/-! ### After the stop -/

/-- What the handler of the agent is called for after the stop in the course of moves. -/
structure AfterStop (a : Agent J) (moves : List (Move J)) : Prop where
  /-- The first of the stragglers, in order. -/
  handled : served (since Call.isStop (calls (a.play moves).1)) <+: stragglers (a.accepted moves)
  /-- The stragglers are jobs and at most one heartbeat. -/
  plain : ∀ w ∈ stragglers (a.accepted moves), w.isPlain = true
  beats : beatsAmong (stragglers (a.accepted moves)) ≤ 1
  /-- All are jobs if the timer was not at work at some time between the two steps of the request
  to stop. -/
  jobs : ∀ before after, moves = before ++ after → (a.play before).2.stopping = true →
    (a.play before).2.timer = .asleep → ∀ w ∈ stragglers (a.accepted moves), ∃ j, w = .job j
  /-- Once the loop has left, they have been handled. -/
  left : (a.play moves).1.any exits = true →
    served (since Call.isStop (calls (a.play moves).1)) = stragglers (a.accepted moves)
  /-- Then the stop was the last call exactly if there are none. -/
  last_iff : (a.play moves).1.any exits = true →
    (since Call.isStop (calls (a.play moves).1) = [] ↔ stragglers (a.accepted moves) = [])

section Stragglers

variable {a : Agent J} {cs : List (Call J)} {acc : List (Message J)}

/-- One request to stop is accepted at most. -/
theorem Kept.stop_not_mem_since (h : a.Kept cs acc) : .stop ∉ since Message.isStop acc := by
  rw [stop_not_mem_iff]
  cases hany : acc.any Message.isStop with
  | false => rw [since_of_not_any hany, List.countP_nil]
  | true =>
    have hone := h.stops
    rw [countP_since hany] at hone
    split at hone <;> split at hone <;> omega

theorem Kept.isPlain_of_straggler (h : a.Kept cs acc) {w : Message J} (hw : w ∈ stragglers acc) :
    w.isPlain = true := by
  cases w with
  | job | heartbeat => rfl
  | stop => exact absurd ((List.takeWhile_prefix _).subset hw) h.stop_not_mem_since
  | close => simpa [Message.isClose] using List.mem_takeWhile_imp hw

/-- Between the two steps of the request to stop no stop message has been accepted. -/
theorem Kept.owing (h : a.Kept cs acc) (howed : a.stopping = true) :
    a.status = .stopped ∧ acc.any Message.isStop = false := by
  have hone := h.stops
  rw [if_pos howed] at hone
  split at hone
  · next hs => exact ⟨hs, (any_isStop_eq_false_iff acc).mpr (by omega)⟩
  · omega

/-- The close message stands behind the request to stop. -/
theorem Kept.close_mem_since (h : a.Kept cs acc) (hclose : .close ∈ acc) :
    .close ∈ since Message.isStop acc := by
  obtain ⟨rest, hrest⟩ := h.inOrder
  have hstop : (served cs).any Message.isStop = true :=
    (any_isStop_served cs).trans ((any_isStop_calls cs).mpr (h.close hclose))
  rw [← hrest] at hclose ⊢
  rw [since_append hstop]
  exact List.mem_append_right _
    ((List.mem_append.mp hclose).resolve_left (close_not_mem_served cs))

/-- Behind the close message there are no stragglers. -/
theorem Kept.stragglers_append (h : a.Kept cs acc) (hclose : .close ∈ acc)
    (new : List (Message J)) : stragglers (acc ++ new) = stragglers acc := by
  obtain ⟨more, hmore⟩ := since_prefix (p := Message.isStop) (List.prefix_append acc new)
  rw [stragglers, stragglers, ← hmore, List.takeWhile_append, if_neg]
  intro hlength
  have hwhole := (List.takeWhile_prefix _).eq_of_length hlength
  have hmem := h.close_mem_since hclose
  rw [← hwhole] at hmem
  simpa [Message.isClose] using List.mem_takeWhile_imp hmem

/-- The close message itself is none. -/
theorem stragglers_concat_close (acc : List (Message J)) :
    stragglers (acc ++ [.close]) = stragglers acc := by
  cases hany : acc.any Message.isStop with
  | true =>
    rw [stragglers, stragglers, since_append hany, List.takeWhile_append]
    split
    · next hlength =>
      rw [(List.takeWhile_prefix _).eq_of_length hlength]
      exact List.append_nil _
    · rfl
  | false =>
    rw [stragglers, stragglers, since_append_of_not_any hany, since_of_not_any hany]
    rfl

/-- Until the close message is accepted, the stragglers wait. -/
theorem Closing.beatsAmong_stragglers_le (h : Closing a cs acc) (hk : a.Kept cs acc)
    (hclose : .close ∉ acc) : beatsAmong (stragglers acc) ≤ beatsAmong a.mailbox :=
  Nat.le_trans ((List.takeWhile_prefix _).sublist.countP_le)
    ((h.waiting hk hclose).sublist.countP_le)

end Stragglers

/-- One straggler at most is a heartbeat: until the close message is accepted they all wait, and
there is one heartbeat at a time. -/
theorem beatsAmong_stragglers_le {name : String} {period : Option Nat} {a : Agent J}
    (ha : new name period = .ok a) {moves : List (Move J)} (ho : Owned moves) :
    beatsAmong (stragglers (a.accepted moves)) ≤ 1 := by
  induction moves using List.reverseRecOn with
  | nil => exact Nat.zero_le _
  | append_singleton moves m ih =>
    have before := (List.pairwise_append.mp ho).1
    by_cases hclose : .close ∈ a.accepted (moves ++ [m])
    · rw [accepted_concat] at hclose ⊢
      rcases List.mem_append.mp hclose with hclose | hclose
      · rw [(kept_play ha before).stragglers_append hclose]
        exact ih before
      · rw [(effect_move _ m).closing hclose, stragglers_concat_close]
        exact ih before
    · have one := (balanced_play ha ho).one
      refine Nat.le_trans
        ((closing_play ha ho).beatsAmong_stragglers_le (kept_play ha ho) hclose) ?_
      show (a.play (moves ++ [m])).2.gate.waiting ≤ 1
      omega

/-- No start comes after the stop, so that every call then handles a message. -/
theorem Kept.served_since_eq_nil_iff {a : Agent J} {cs : List (Call J)} {acc : List (Message J)}
    (h : a.Kept cs acc) : served (since Call.isStop cs) = [] ↔ since Call.isStop cs = [] := by
  refine ⟨fun hnone => ?_, fun hnone => hnone ▸ rfl⟩
  have hstart : Call.start ∉ since Call.isStop cs := by
    rcases h.begins with rfl | ⟨rest, rfl, hrest⟩
    · exact List.not_mem_nil
    · exact fun hmem => hrest ((since_suffix Call.isStop rest).subset hmem)
  rw [List.eq_nil_iff_forall_not_mem]
  intro c hc
  have := List.filterMap_eq_nil_iff.mp hnone c hc
  cases c with
  | start => exact hstart hc
  | job | heartbeat | stop => cases this

/-- **After the stop.** The handler is called for the stragglers and for nothing else, and the stop
is its last call exactly if there are none. -/
theorem afterStop {name : String} {period : Option Nat} {a : Agent J}
    (ha : new name period = .ok a) {moves : List (Move J)} (ho : Owned moves) :
    a.AfterStop moves := by
  have kept := kept_play ha ho
  have left : (a.play moves).1.any exits = true →
      served (since Call.isStop (calls (a.play moves).1)) = stragglers (a.accepted moves) := by
    intro h
    obtain ⟨loop, -, hcalls⟩ := exits_play ha ho h
    obtain ⟨front, late, lost, hcs, -, -, hacc, hbefore, -⟩ := kept.parted loop hcalls
    have hnone : (served front).any Message.isStop = false := by
      rwa [any_isStop_eq_false_iff, ← stop_not_mem_iff]
    have hserved : served (.start :: front ++ .stop :: late) =
        served front ++ .stop :: served late := by
      simp [served, List.filterMap_append, List.filterMap_cons, Call.message?]
    rw [served_since, hcs, hserved, stragglers, hacc, since_append_cons hnone rfl,
      since_append_cons hnone rfl, takeWhile_served_append]
    simp [Message.isClose]
  constructor
  case handled =>
    obtain ⟨rest, hrest⟩ := since_prefix (p := Message.isStop) kept.inOrder
    rw [served_since, stragglers, ← hrest, ← served_since, takeWhile_served_append]
    exact List.prefix_append ..
  case plain => exact fun w hw => kept.isPlain_of_straggler hw
  case beats => exact beatsAmong_stragglers_le ha ho
  case jobs =>
    rintro before after rfl howed hasleep w hw
    have kept' := kept_play ha (List.pairwise_append.mp ho).1
    have hplain := kept.isPlain_of_straggler hw
    cases w with
    | job j => exact ⟨j, rfl⟩
    | heartbeat =>
      obtain ⟨hstopped, hnone⟩ := kept'.owing howed
      have none := ((kept'.ended (timed_play ha before) hstopped).play hasleep after).2
      have hmem := (List.takeWhile_prefix _).subset hw
      rw [accepted_append, since_append_of_not_any hnone] at hmem
      exact absurd rfl (List.countP_eq_zero.mp none _ ((since_suffix ..).subset hmem))
    | stop | close => cases hplain
  case left => exact left
  case last_iff => exact fun h => by rw [← left h, kept.served_since_eq_nil_iff]

/-- A job is posted after the request to stop and before the handler is called for it. -/
def overtime : List (Move Nat) :=
  [.tryStart true 0, .take, .finish, .halt, .sendStop, .post 1, .take, .finish, .take, .finish,
    .take]

theorem owned_overtime : Owned overtime := by
  unfold Owned
  decide

theorem afterStop_of_overtime :
    new "clerk" (some 20000) = .ok clerk ∧ Owned overtime ∧ clerk.AfterStop overtime :=
  ⟨new_clerk, owned_overtime, afterStop new_clerk owned_overtime⟩

/-- The job is handled after the stop. -/
theorem not_lastCall_overtime :
    ¬ ∀ (name : String) (period : Option Nat) (a : Agent Nat) (moves : List (Move Nat)),
      new name period = .ok a → Owned moves →
        since Call.isStop (calls (a.play moves).1) = [] := by
  intro h
  have hlast := h "clerk" (some 20000) clerk overtime new_clerk owned_overtime
  have hcalls : since Call.isStop (calls (clerk.play overtime).1) = [.job 1] := by decide
  simp [hcalls] at hlast

end Agent

end PartyGraph
