import Mathlib.Data.List.Basic
import Mathlib.Data.List.Induction
import PartyGraph.Proofs.Agent.Mailbox

/-!
# The order in which messages are handled

Whatever happens to an agent, what waited in its mailbox and what came in are what the handler took
out and what waits now, in the same order. From this law of a single move follows the order of a
whole history: the calls of the handler begin with that at the start, and the messages handled after
it are the first of those that were accepted. A message is a place in that list, so that none is
handled twice and none is passed over.

A single message asks for the stop, since a stopped agent is not stopped again, and the close
message is sent behind the handler's back once the stop was handled. The loop leaves at the close
message, and so everything that was accepted before the stop message has been handled by then. An
agent counts as stopped a moment before that message is sent, and what is accepted in between stands
before it.

An agent that was let go before it was started is gone. Nobody holds it then who could attempt a
start, and `Agent.Owned` says so of a history.

## Main definitions

* `Agent.calls`: the calls of the handler in a history.
* `Agent.accepted`: the messages that are put into the mailbox in a history.
* `Agent.Effect`: all that a move can do to the mailbox, the loop and the status.
* `Agent.Kept`: what calls and accepted messages have in common at every time.
* `Agent.Roused`: a loop that runs was started.
* `Agent.MailboxOrder`: the order of a whole history.

## Main results

* `Agent.effect_move`: the cases of a move.
* `Agent.Kept.effect`, `Agent.kept_play`: one move, and any history.
-/

namespace PartyGraph

namespace Agent

variable {J : Type}

/-! ### Histories -/

/-- Whether a move attempts the start. -/
def Move.isTryStart : Move J → Bool
  | .tryStart .. => true
  | _ => false

/-- Nobody attempts to start an agent that its last owner has let go of. -/
def Owned (moves : List (Move J)) : Prop :=
  moves.Pairwise fun m m' => m = .release → m'.isTryStart = false

/-- The call of the handler that an answer tells of, if it does. -/
def Answer.call? : Answer J → Option (Call J)
  | .turn (some (.call c)) => some c
  | _ => Option.none

/-- The calls of the handler in a history, in order. -/
def calls (history : List (Move J × Answer J)) : List (Call J) :=
  history.filterMap fun e => e.2.call?

/-- The messages that a move puts into the mailbox. -/
def accepts (a : Agent J) (m : Move J) : List (Message J) :=
  (a.move m).2.mailbox.drop a.mailbox.length

/-- All messages that are put into the mailbox in the course of moves, in order. -/
def accepted (a : Agent J) : List (Move J) → List (Message J)
  | [] => []
  | m :: rest => a.accepts m ++ (a.move m).2.accepted rest

theorem play_append (a : Agent J) (before after : List (Move J)) :
    a.play (before ++ after) =
      ((a.play before).1 ++ ((a.play before).2.play after).1,
        ((a.play before).2.play after).2) := by
  induction before generalizing a with
  | nil => rfl
  | cons m before ih => simp only [List.cons_append, play, ih]

theorem play_concat (a : Agent J) (moves : List (Move J)) (m : Move J) :
    a.play (moves ++ [m]) =
      ((a.play moves).1 ++ [(m, ((a.play moves).2.move m).1)], ((a.play moves).2.move m).2) := by
  rw [play_append]
  rfl

theorem calls_concat (history : List (Move J × Answer J)) (m : Move J) (answer : Answer J) :
    calls (history ++ [(m, answer)]) = calls history ++ answer.call?.toList := by
  rw [calls, List.filterMap_append]
  cases h : answer.call? <;> simp [calls, h]

theorem accepted_append (a : Agent J) (before after : List (Move J)) :
    a.accepted (before ++ after) = a.accepted before ++ (a.play before).2.accepted after := by
  induction before generalizing a with
  | nil => rfl
  | cons m before ih => simp only [List.cons_append, accepted, play, ih, List.append_assoc]

theorem accepted_concat (a : Agent J) (moves : List (Move J)) (m : Move J) :
    a.accepted (moves ++ [m]) = a.accepted moves ++ (a.play moves).2.accepts m := by
  simp [accepted_append, accepted]

/-! ### Requests -/

/-- Whether a move is one that anyone may make at any time. -/
def Move.isRequest : Move J → Bool
  | .tryStart .. => true
  | .post _ => true
  | .halt => true
  | .sendStop => true
  | .wake => true
  | .strike => true
  | .settle => true
  | .doze => true
  | _ => false

/-- `a'` is `a` after requests, with attempts to start among them only if it may be started. -/
def Requested (startable : Bool) (a a' : Agent J) : Prop :=
  ∃ moves : List (Move J), a' = (a.play moves).2 ∧
    ∀ m ∈ moves, m.isRequest = true ∧ (m.isTryStart = true → startable = true)

namespace Requested

variable {startable : Bool} {a a' a'' : Agent J}

theorem refl (startable : Bool) (a : Agent J) : Requested startable a a :=
  ⟨[], rfl, fun _ h => absurd h List.not_mem_nil⟩

theorem move (a : Agent J) {m : Move J} (hm : m.isRequest = true)
    (hs : m.isTryStart = true → startable = true) : Requested startable a (a.move m).2 :=
  ⟨[m], rfl, fun _ h => List.mem_singleton.mp h ▸ ⟨hm, hs⟩⟩

theorem trans (h : Requested startable a a') (h' : Requested startable a' a'') :
    Requested startable a a'' := by
  obtain ⟨moves, rfl, hall⟩ := h
  obtain ⟨moves', rfl, hall'⟩ := h'
  exact ⟨moves ++ moves', by rw [play_append], List.forall_mem_append.mpr ⟨hall, hall'⟩⟩

theorem send (h : a.isOpen = true) (j : J) : Requested startable a (a.send (.job j)) := by
  have hpost : (a.move (.post j)).2 = a.send (.job j) := by simp [Agent.move, post, h]
  exact hpost ▸ move a rfl (by simp [Move.isTryStart])

/-- A request to stop with nothing between its steps. -/
theorem sendStop (startable : Bool) (a : Agent J) : Requested startable a a.sendStop.2 := by
  rw [Agent.sendStop]
  split
  · exact ⟨[.halt, .sendStop], rfl, by simp [Move.isRequest, Move.isTryStart]⟩
  · exact refl startable a

/-- A tick with nothing between the steps of the timer. -/
theorem tick (startable : Bool) (a : Agent J) : Requested startable a a.tick :=
  ⟨[.wake, .strike, .settle, .doze], rfl, by simp [Move.isRequest, Move.isTryStart]⟩

end Requested

/-! ### Messages and their calls -/

/-- The message that a call handles; that at the start handles none. -/
def Call.message? : Call J → Option (Message J)
  | start => none
  | job j => some (.job j)
  | heartbeat _ => some .heartbeat
  | stop => some .stop

/-- The messages that calls handle, in order. -/
def served (cs : List (Call J)) : List (Message J) := cs.filterMap Call.message?

/-- Whether a message is one of those that come from outside and are no request to stop. -/
def Message.isPlain : Message J → Bool
  | job _ => true
  | heartbeat => true
  | _ => false

theorem served_concat {c : Call J} {m : Message J} (cs : List (Call J))
    (h : c.message? = some m) : served (cs ++ [c]) = served cs ++ [m] := by
  simp [served, List.filterMap_append, h]

theorem close_not_mem_served (cs : List (Call J)) : Message.close ∉ served cs := by
  intro h
  obtain ⟨c, -, hc⟩ := List.mem_filterMap.mp h
  cases c <;> cases hc

theorem stop_not_mem_iff (ms : List (Message J)) :
    Message.stop ∉ ms ↔ ms.countP Message.isStop = 0 := by
  rw [List.countP_eq_zero]
  constructor
  · intro h w hw
    cases w <;> first | exact absurd hw h | simp [Message.isStop]
  · exact fun h hmem => h _ hmem rfl

theorem stop_mem_served {cs : List (Call J)} (h : Call.stop ∈ cs) : Message.stop ∈ served cs :=
  List.mem_filterMap.mpr ⟨_, h, rfl⟩

/-! ### What a move does -/

theorem send_of_open {a : Agent J} (h : a.isOpen = true) (m : Message J) :
    a.send m = { a with mailbox := a.mailbox ++ [m] } := if_pos h

theorem isOpen_iff (a : Agent J) : a.isOpen = true ↔ a.loop ≠ .exited := by
  unfold isOpen
  cases a.loop <;> simp

theorem isFinished_iff (a : Agent J) : a.isFinished = true ↔ a.loop = .exited := by
  rw [isFinished, Bool.not_eq_true', Bool.eq_false_iff, Ne, isOpen_iff, not_not]

theorem send_of_exited {a : Agent J} (h : a.loop = .exited) (m : Message J) : a.send m = a := by
  simp [send, isOpen, h]

/-- What a move `m` does to an agent `a`, which is `a'` afterwards, when it makes the handler take
the call `c?` and puts `new` into the mailbox. -/
inductive Effect (a : Agent J) (m : Move J) (a' : Agent J) :
    (c? : Option (Call J)) → (new : List (Message J)) → Prop
  /-- Nothing that matters here, or the handler is done with something else than the stop. -/
  | rests (loop : a'.loop = a.loop ∨
        ∃ c, a.loop = .calling c ∧ c ≠ .stop ∧ a'.loop = .waiting)
      (mailbox : a'.mailbox = a.mailbox) (status : a'.status = a.status)
      (attempted : a.startAttempted = true → a'.startAttempted = true)
      (timer : a'.due.isSome = true → a.due.isSome = true) (stopping : a'.stopping = a.stopping) :
      Effect a m a' none []
  /-- A job or a heartbeat is accepted. -/
  | sends (w : Message J) (plain : w.isPlain = true) (isOpen : a.loop ≠ .exited)
      (loop : a'.loop = a.loop) (mailbox : a'.mailbox = a.mailbox ++ [w])
      (status : a'.status = a.status) (attempted : a'.startAttempted = a.startAttempted)
      (timer : a'.due.isSome = true → a.due.isSome = true) (stopping : a'.stopping = a.stopping)
      (beat : w = .heartbeat → a.timer = .sending) : Effect a m a' none [w]
  /-- The stop of a running agent is requested. -/
  | halts (loop : a'.loop = a.loop) (mailbox : a'.mailbox = a.mailbox)
      (running : a.status = .running) (status : a'.status = .stopped)
      (attempted : a'.startAttempted = a.startAttempted) (timer : a'.due = none)
      (stopping : a'.stopping = true) : Effect a m a' none []
  /-- The stop message is sent, and is accepted unless the loop has left. -/
  | stops (new : List (Message J)) (loop : a'.loop = a.loop)
      (sent : a.loop ≠ .exited → new = [.stop]) (unsent : a.loop = .exited → new = [])
      (mailbox : a'.mailbox = a.mailbox ++ new) (owed : a.stopping = true)
      (status : a'.status = a.status) (attempted : a'.startAttempted = a.startAttempted)
      (timer : a'.due = a.due) (stopping : a'.stopping = false) : Effect a m a' none new
  /-- The handler is done with the stop. -/
  | closes (before : a.loop = .calling .stop) (loop : a'.loop = .waiting)
      (mailbox : a'.mailbox = a.mailbox ++ [.close]) (status : a'.status = a.status)
      (attempted : a'.startAttempted = a.startAttempted) (timer : a'.due = a.due)
      (stopping : a'.stopping = a.stopping) : Effect a m a' none [.close]
  /-- The first attempt to start it is approved. -/
  | starts (move : m.isTryStart = true) (before : a.startAttempted = false)
      (loop : a'.loop = .fresh) (mailbox : a'.mailbox = a.mailbox) (status : a'.status = .running)
      (attempted : a'.startAttempted = true) (stopping : a'.stopping = a.stopping) :
      Effect a m a' none []
  /-- The loop calls the handler for the first time. -/
  | begins (before : a.loop = .fresh) (loop : a'.loop = .calling .start)
      (mailbox : a'.mailbox = a.mailbox) (status : a'.status = a.status)
      (attempted : a'.startAttempted = a.startAttempted) (timer : a'.due = a.due)
      (stopping : a'.stopping = a.stopping) : Effect a m a' (some .start) []
  /-- The loop takes a message. -/
  | handles (c : Call J) (w : Message J) (before : a.loop = .waiting)
      (loop : a'.loop = .calling c) (message : c.message? = some w)
      (mailbox : a.mailbox = w :: a'.mailbox) (status : a'.status = a.status)
      (attempted : a'.startAttempted = a.startAttempted) (timer : a'.due = a.due)
      (stopping : a'.stopping = a.stopping) : Effect a m a' (some c) []
  /-- The loop leaves. -/
  | leaves (rest : List (Message J)) (before : a.loop = .waiting) (loop : a'.loop = .exited)
      (mailbox : a.mailbox = .close :: rest) (emptied : a'.mailbox = [])
      (status : a'.status = a.status) (attempted : a'.startAttempted = a.startAttempted)
      (timer : a'.due = a.due) (stopping : a'.stopping = a.stopping) : Effect a m a' none []
  /-- An agent that was not started is let go. -/
  | vanishes (move : m = .release) (before : a.loop = .absent) (loop : a'.loop = .exited)
      (emptied : a'.mailbox = []) (status : a'.status = a.status)
      (attempted : a'.startAttempted = a.startAttempted) (timer : a'.due = none)
      (stopping : a'.stopping = a.stopping) : Effect a m a' none []

namespace Effect

variable {a a' : Agent J} {m : Move J}

theorem refl (a : Agent J) (m : Move J) : Effect a m a none [] :=
  .rests (.inl rfl) rfl rfl id id rfl

theorem tryStart (a : Agent J) (approved : Bool) (now : Nat) :
    Effect a (.tryStart approved now) (a.tryStart approved now) none [] := by
  rw [Agent.tryStart]
  split
  · exact refl a _
  · next h =>
    have h : a.startAttempted = false := by simpa using h
    split
    · exact .starts rfl h rfl rfl rfl rfl rfl
    · exact .rests (.inl rfl) rfl rfl (fun _ => rfl) id rfl

theorem post (a : Agent J) (j : J) : ∃ new, Effect a m (a.move (.post j)).2 none new := by
  simp only [move, Agent.post]
  by_cases hl : a.isOpen = true
  · simp only [hl, if_true, send_of_open hl]
    exact ⟨_, .sends (.job j) rfl ((isOpen_iff a).mp hl) rfl rfl rfl rfl id rfl (by simp)⟩
  · simp only [hl]
    exact ⟨_, refl a m⟩

theorem halt (a : Agent J) : Effect a m a.halt none [] := by
  rw [Agent.halt]
  split
  · next h => exact .halts rfl rfl h rfl rfl rfl rfl
  · exact refl a m

theorem sendHalt (a : Agent J) : ∃ new, Effect a m a.sendHalt none new := by
  rw [Agent.sendHalt]
  split
  · next h =>
    by_cases hl : a.loop = .exited
    · rw [send_of_exited (by exact hl)]
      exact ⟨[], .stops _ rfl (absurd hl) (fun _ => rfl) (by simp) h rfl rfl rfl rfl⟩
    · rw [send_of_open ((isOpen_iff _).mpr (by exact hl))]
      exact ⟨_, .stops _ rfl (fun _ => rfl) (absurd · hl) rfl h rfl rfl rfl rfl⟩
  · exact ⟨[], refl a m⟩

theorem abandon (a : Agent J) : Effect a .release a.abandon none [] := by
  rw [Agent.abandon]
  split
  · next h => exact .vanishes rfl h rfl rfl rfl rfl rfl rfl
  · rw [Agent.halt]
    split
    · next h => exact .halts rfl rfl h rfl rfl rfl rfl
    · exact .rests (.inl rfl) rfl rfl id (by simp) rfl

theorem wake (a : Agent J) : Effect a m a.wake none [] := by
  rw [Agent.wake]
  split
  · exact .rests (.inl rfl) rfl rfl id id rfl
  · exact refl a m

theorem strike (a : Agent J) : Effect a m a.strike none [] := by
  rw [Agent.strike]
  split
  · have timer (h : (a.due.bind fun t => a.period.map (t + ·)).isSome = true) :
        a.due.isSome = true := by
      cases hd : a.due with
      | none => simp [hd] at h
      | some t => rfl
    dsimp only
    split <;> exact .rests (.inl rfl) rfl rfl id timer rfl
  · exact refl a m

theorem settle (a : Agent J) : ∃ new, Effect a m a.settle none new := by
  rw [Agent.settle]
  split
  · next hs =>
    split
    · next hl =>
      rw [send_of_open (by exact hl)]
      exact ⟨_, .sends .heartbeat rfl ((isOpen_iff a).mp hl) rfl rfl rfl rfl id rfl fun _ => hs⟩
    · exact ⟨[], .rests (.inl rfl) rfl rfl id (by simp) rfl⟩
  · exact ⟨[], .rests (.inl rfl) rfl rfl id id rfl⟩
  · exact ⟨[], refl a m⟩

theorem doze (a : Agent J) : Effect a m a.doze none [] := by
  rw [Agent.doze]
  split
  · exact .rests (.inl rfl) rfl rfl id id rfl
  · exact refl a m

theorem finish (a : Agent J) : ∃ new, Effect a m a.finish none new := by
  rw [Agent.finish]
  split
  · next n hl => exact ⟨[], .rests (.inr ⟨_, hl, by simp, rfl⟩) rfl rfl id id rfl⟩
  · next hl => exact ⟨_, .closes hl rfl rfl rfl rfl rfl rfl⟩
  · next c _ hstop hl => exact ⟨[], .rests (.inr ⟨_, hl, hstop, rfl⟩) rfl rfl id id rfl⟩
  · exact ⟨[], refl a m⟩

theorem call {c : Call J} (h : a.take = some (.call c, a')) : Effect a m a' (some c) [] := by
  rw [Agent.take] at h
  split at h
  · next hl =>
    cases h
    exact .begins hl rfl rfl rfl rfl rfl rfl
  iterate 3
    next hl hm =>
      cases h
      exact .handles _ _ hl rfl rfl hm rfl rfl rfl rfl
  · cases h
  · cases h

theorem exit {dropped : List J} (h : a.take = some (.exit dropped, a')) :
    Effect a m a' none [] := by
  rw [Agent.take] at h
  split at h
  iterate 4 cases h
  · next hl hm =>
    cases h
    exact .leaves _ hl rfl hm rfl rfl rfl rfl rfl
  · cases h

/-- What is put into the mailbox shows in it. -/
theorem accepted {c? : Option (Call J)} {new : List (Message J)} (h : Effect a m a' c? new) :
    a'.mailbox.drop a.mailbox.length = new := by
  cases h with
  | rests _ mailbox => simp [mailbox]
  | sends w _ _ _ mailbox => simp [mailbox]
  | halts _ mailbox => simp [mailbox]
  | stops _ _ _ _ mailbox => simp [mailbox]
  | closes _ _ mailbox => simp [mailbox]
  | starts _ _ _ mailbox => simp [mailbox]
  | begins _ _ mailbox => simp [mailbox]
  | handles c w _ _ _ mailbox => simp [mailbox]
  | leaves _ _ _ _ emptied => simp [emptied]
  | vanishes _ _ _ emptied => simp [emptied]

/-- The close message comes alone. -/
theorem closing {c? : Option (Call J)} {new : List (Message J)} (h : Effect a m a' c? new)
    (hw : .close ∈ new) : new = [.close] := by
  cases h with
  | closes => rfl
  | sends w => rw [List.mem_singleton.mp hw]
  | stops _ _ sent unsent =>
    by_cases hl : a.loop = .exited
    · simp [unsent hl] at hw
    · simp [sent hl] at hw
  | rests | halts | starts | begins | handles | leaves | vanishes => simp at hw

/-- A heartbeat comes from a timer that has it in hand. -/
theorem sending {c? : Option (Call J)} {new : List (Message J)} (h : Effect a m a' c? new)
    (hw : .heartbeat ∈ new) : a.timer = .sending := by
  cases h with
  | sends w _ _ _ _ _ _ _ _ beat => exact beat (List.mem_singleton.mp hw).symm
  | stops _ _ sent unsent =>
    by_cases hl : a.loop = .exited
    · simp [unsent hl] at hw
    · simp [sent hl] at hw
  | closes => simp at hw
  | rests | halts | starts | begins | handles | leaves | vanishes => simp at hw

end Effect

/-- Only a turn of the loop makes the handler take a call. -/
theorem call?_move (a : Agent J) {m : Move J} (h : m ≠ .take) : (a.move m).1.call? = none := by
  cases m with
  | take => exact absurd rfl h
  | tryStart | wake | doze | release | finish => rfl
  | post | halt | sendStop | strike | settle =>
    simp only [move]
    split <;> rfl

/-- The cases of `Effect` are all. -/
theorem effect_move (a : Agent J) (m : Move J) :
    Effect a m (a.move m).2 (a.move m).1.call? (a.accepts m) := by
  suffices h : ∃ new, Effect a m (a.move m).2 (a.move m).1.call? new by
    obtain ⟨new, h⟩ := h
    rwa [accepts, h.accepted]
  by_cases hm : m = .take
  · subst hm
    simp only [move]
    split
    · next t a' h =>
      cases t with
      | call c => exact ⟨_, .call h⟩
      | exit dropped => exact ⟨_, .exit h⟩
    · exact ⟨_, .refl a _⟩
  · rw [call?_move a hm]
    cases m with
    | tryStart approved now => exact ⟨_, .tryStart a approved now⟩
    | post j => exact Effect.post a j
    | halt => exact ⟨_, .halt a⟩
    | sendStop => exact Effect.sendHalt a
    | wake => exact ⟨_, .wake a⟩
    | strike => exact ⟨_, .strike a⟩
    | settle => exact Effect.settle a
    | doze => exact ⟨_, .doze a⟩
    | release => exact ⟨_, .abandon a⟩
    | take => exact absurd rfl hm
    | finish => exact Effect.finish a

/-! ### What calls and messages have in common -/

/-- The calls `cs` and the accepted messages `acc` by the place of the loop. -/
inductive Stage (a : Agent J) (cs : List (Call J)) (acc : List (Message J)) : Prop
  /-- It has not been started. -/
  | absent (loop : a.loop = .absent) (status : a.status = .waitingForStart) (calls : cs = [])
      (mailbox : acc = a.mailbox)
  /-- It has been started and has not called the handler. -/
  | fresh (loop : a.loop = .fresh) (status : a.status ≠ .waitingForStart)
      (attempted : a.startAttempted = true) (calls : cs = []) (mailbox : acc = a.mailbox)
  /-- It handles messages. -/
  | underWay (loop : a.loop = .waiting ∨ ∃ c ∈ cs, a.loop = .calling c)
      (status : a.status ≠ .waitingForStart) (attempted : a.startAttempted = true)
      (calls : ∃ rest, cs = .start :: rest ∧ .start ∉ rest)
      (mailbox : acc = served cs ++ a.mailbox)
  /-- It has left at a close message. -/
  | left (loop : a.loop = .exited) (status : a.status ≠ .waitingForStart)
      (attempted : a.startAttempted = true)
      (calls : ∃ rest, cs = .start :: rest ∧ .start ∉ rest)
      (mailbox : ∃ lost, acc = served cs ++ .close :: lost)
  /-- There never was one, and there will not be. -/
  | gone (loop : a.loop = .exited) (status : a.status = .waitingForStart) (calls : cs = [])

/-- What the calls `cs` and the accepted messages `acc` have in common. -/
structure Kept (a : Agent J) (cs : List (Call J)) (acc : List (Message J)) : Prop where
  stage : a.Stage cs acc
  /-- A stopped agent has sent the stop message, or is about to. -/
  stops : (acc.countP Message.isStop + if a.stopping then 1 else 0)
    = if a.status = .stopped then 1 else 0
  close : .close ∈ acc → .stop ∈ cs

namespace Kept

variable {a a' : Agent J} {cs : List (Call J)} {acc : List (Message J)}

theorem begins (h : a.Kept cs acc) : cs = [] ∨ ∃ rest, cs = .start :: rest ∧ .start ∉ rest := by
  cases h.stage with
  | absent _ _ calls => exact .inl calls
  | fresh _ _ _ calls => exact .inl calls
  | underWay _ _ _ calls => exact .inr calls
  | left _ _ _ calls => exact .inr calls
  | gone _ _ calls => exact .inl calls

theorem inOrder (h : a.Kept cs acc) : served cs <+: acc := by
  cases h.stage with
  | absent _ _ calls => exact calls ▸ List.nil_prefix
  | fresh _ _ _ calls => exact calls ▸ List.nil_prefix
  | underWay _ _ _ _ mailbox => exact ⟨_, mailbox.symm⟩
  | left _ _ _ _ mailbox =>
    obtain ⟨lost, hacc⟩ := mailbox
    exact ⟨_, hacc.symm⟩
  | gone _ _ calls => exact calls ▸ List.nil_prefix

/-- Nobody is about to send the stop message to a loop that runs no more. -/
theorem not_stopping (h : a.Kept cs acc) (hl : a.loop = .exited) : a.stopping = false := by
  rw [← Bool.not_eq_true]
  intro howed
  have hone := h.stops
  rw [if_pos howed] at hone
  cases h.stage with
  | gone _ status => simp [status] at hone
  | left _ _ _ _ mailbox =>
    obtain ⟨lost, hacc⟩ := mailbox
    have hstop := h.inOrder.subset (stop_mem_served (h.close (by simp [hacc])))
    have hsome : acc.countP Message.isStop ≠ 0 := fun hnone =>
      (stop_not_mem_iff acc).mpr hnone hstop
    split at hone <;> omega
  | absent loop | fresh loop => simp [hl] at loop
  | underWay loop => simp [hl] at loop

theorem calling {c : Call J} (h : a.Kept cs acc) (hl : a.loop = .calling c) : c ∈ cs := by
  cases h.stage with
  | underWay loop => simpa [hl] using loop
  | absent loop | fresh loop | left loop | gone loop => simp [hl] at loop

/-- A loop that has left was called for the stop once, which parts both the calls and the accepted
messages: the messages before it were all handled before, those after it up to the close message
since, and none of what came later. -/
theorem parted (h : a.Kept cs acc) (hl : a.loop = .exited) (hcs : cs ≠ []) :
    ∃ front late lost, cs = .start :: front ++ .stop :: late ∧ .stop ∉ front ∧ .stop ∉ late ∧
      acc = served front ++ .stop :: (served late ++ .close :: lost) ∧
      .stop ∉ served front ∧ .stop ∉ served late ++ .close :: lost := by
  cases h.stage with
  | gone _ _ hnone => exact absurd hnone hcs
  | absent loop | fresh loop | underWay loop => simp [hl] at loop
  | left _ _ _ hstart hacc =>
    obtain ⟨rest, rfl, -⟩ := hstart
    obtain ⟨lost, hacc⟩ := hacc
    have hstop : Call.stop ∈ rest := by simpa using h.close (by simp [hacc])
    obtain ⟨front, late, rfl⟩ := List.append_of_mem hstop
    have hacc : acc = served front ++ .stop :: (served late ++ .close :: lost) := by
      simpa [served, Call.message?, List.filterMap_cons] using hacc
    have hone : (served front).countP Message.isStop = 0 ∧
        (served late ++ .close :: lost).countP Message.isStop = 0 := by
      have := h.stops
      rw [hacc, List.countP_append, List.countP_cons_of_pos rfl] at this
      split at this <;> split at this <;> omega
    rw [← stop_not_mem_iff, ← stop_not_mem_iff] at hone
    exact ⟨front, late, lost, rfl, mt stop_mem_served hone.1,
      fun hmem => hone.2 (List.mem_append_left _ (stop_mem_served hmem)), hacc, hone⟩

/-! ### One move -/

/-- Nothing is called and nothing accepted, and the agent is where it was. -/
theorem rests (h : a.Kept cs acc) (loop : a'.loop = a.loop ∨
      (∃ c, a.loop = .calling c) ∧ a'.loop = .waiting)
    (mailbox : a'.mailbox = a.mailbox)
    (status : a.status = .waitingForStart ↔ a'.status = .waitingForStart)
    (attempted : a.startAttempted = true → a'.startAttempted = true)
    (stops : (acc.countP Message.isStop + if a'.stopping then 1 else 0)
      = if a'.status = .stopped then 1 else 0) : a'.Kept cs acc := by
  refine ⟨?_, stops, h.close⟩
  cases h.stage with
  | absent hl hs hc hm =>
    exact .absent (by simpa [hl] using loop) (status.mp hs) hc (hm.trans mailbox.symm)
  | fresh hl hs ha hc hm =>
    exact .fresh (by simpa [hl] using loop) (mt status.mpr hs) (attempted ha) hc
      (hm.trans mailbox.symm)
  | underWay hl hs ha hc hm =>
    refine .underWay ?_ (mt status.mpr hs) (attempted ha) hc (mailbox ▸ hm)
    rcases loop with loop | ⟨-, loop⟩
    · exact loop ▸ hl
    · exact .inl loop
  | left hl hs ha hc hm =>
    exact .left (by simpa [hl] using loop) (mt status.mpr hs) (attempted ha) hc hm
  | gone hl hs hc => exact .gone (by simpa [hl] using loop) (status.mp hs) hc

/-- A message is put into the mailbox. -/
theorem sends {m : Message J} (h : a.Kept cs acc) (isOpen : a.loop ≠ .exited)
    (loop : a'.loop = a.loop ∨ (∃ c, a.loop = .calling c) ∧ a'.loop = .waiting)
    (mailbox : a'.mailbox = a.mailbox ++ [m])
    (status : a.status = .waitingForStart ↔ a'.status = .waitingForStart)
    (attempted : a'.startAttempted = a.startAttempted)
    (stops : ((acc ++ [m]).countP Message.isStop + if a'.stopping then 1 else 0)
      = if a'.status = .stopped then 1 else 0)
    (close : m = .close → .stop ∈ cs) : a'.Kept cs (acc ++ [m]) := by
  refine ⟨?_, stops, ?_⟩
  · cases h.stage with
    | absent hl hs hc hm =>
      exact .absent (by simpa [hl] using loop) (status.mp hs) hc (by rw [hm, mailbox])
    | fresh hl hs ha hc hm =>
      exact .fresh (by simpa [hl] using loop) (mt status.mpr hs) (attempted.trans ha) hc
        (by rw [hm, mailbox])
    | underWay hl hs ha hc hm =>
      refine .underWay ?_ (mt status.mpr hs) (attempted.trans ha) hc
        (by rw [hm, mailbox, List.append_assoc])
      rcases loop with loop | ⟨-, loop⟩
      · exact loop ▸ hl
      · exact .inl loop
    | left hl | gone hl => exact absurd hl isOpen
  · intro hmem
    rcases List.mem_append.mp hmem with hmem | hmem
    · exact h.close hmem
    · exact close (List.mem_singleton.mp hmem).symm

/-- What a move adds. An agent whose loop has left stays so. -/
theorem effect {m : Move J} {c? : Option (Call J)} {new : List (Message J)} (h : a.Kept cs acc)
    (he : Effect a m a' c? new) (stays : a.loop = .exited → a'.loop = .exited) :
    a'.Kept (cs ++ c?.toList) (acc ++ new) := by
  cases he with
  | rests loop mailbox status attempted _ stopping =>
    simp only [Option.toList_none, List.append_nil]
    exact h.rests (loop.imp_right fun ⟨c, hc, _, hw⟩ => ⟨⟨c, hc⟩, hw⟩) mailbox (by rw [status])
      attempted (by rw [stopping, status, h.stops])
  | sends w plain isOpen loop mailbox status attempted _ stopping =>
    simp only [Option.toList_none, List.append_nil]
    have hnone : [w].countP Message.isStop = 0 := by
      cases w <;> simp [Message.isPlain, Message.isStop] at plain ⊢
    refine h.sends isOpen (.inl loop) mailbox (by rw [status]) attempted ?_ ?_
    · rw [List.countP_append, hnone, stopping, status, Nat.add_zero, h.stops]
    · rintro rfl
      cases plain
  | halts loop mailbox running status attempted _ stopping =>
    simp only [Option.toList_none, List.append_nil]
    refine h.rests (.inl loop) mailbox (by simp [running, status]) (attempted.trans ·) ?_
    have hnone := h.stops
    rw [running] at hnone
    simpa [stopping, status] using (Nat.add_eq_zero_iff.mp hnone).1
  | stops new loop sent unsent mailbox owed status attempted _ stopping =>
    have hl : a.loop ≠ .exited := fun hl => by simp [h.not_stopping hl] at owed
    obtain rfl := sent hl
    simp only [Option.toList_none, List.append_nil]
    refine h.sends hl (.inl loop) mailbox (by rw [status]) attempted ?_ (by simp)
    have hone := h.stops
    rw [if_pos owed] at hone
    rw [List.countP_append, stopping, status]
    exact hone
  | closes before loop mailbox status attempted _ stopping =>
    simp only [Option.toList_none, List.append_nil]
    refine h.sends (by simp [before]) (.inr ⟨⟨_, before⟩, loop⟩) mailbox (by rw [status]) attempted
      ?_ fun _ => h.calling before
    rw [List.countP_append, stopping, status]
    exact h.stops
  | starts _ before loop mailbox status attempted stopping =>
    simp only [Option.toList_none, List.append_nil]
    cases h.stage with
    | absent hl hs hc hm =>
      refine ⟨.fresh loop (by simp [status]) attempted hc (hm.trans mailbox.symm), ?_, h.close⟩
      rw [stopping, h.stops, hs, status]
      rfl
    | fresh _ _ ha | underWay _ _ ha | left _ _ ha => simp [before] at ha
    | gone hl => exact absurd (loop.symm.trans (stays hl)) (by simp)
  | begins before loop mailbox status attempted _ stopping =>
    cases h.stage with
    | fresh hl hs ha hc hm =>
      subst hc
      refine ⟨.underWay (.inr ⟨.start, by simp, loop⟩) (status ▸ hs) (attempted.trans ha)
        ⟨[], rfl, List.not_mem_nil⟩ ?_, ?_, ?_⟩
      · simp [hm, mailbox, served, Call.message?]
      · rw [List.append_nil, stopping, status, h.stops]
      · simpa using h.close
    | absent hl | left hl | gone hl => simp [before] at hl
    | underWay hl => simp [before] at hl
  | handles c w before loop message mailbox status attempted _ stopping =>
    cases h.stage with
    | underWay hl hs ha hc hm =>
      refine ⟨.underWay (.inr ⟨c, by simp, loop⟩) (status ▸ hs) (attempted.trans ha) ?_ ?_, ?_, ?_⟩
      · obtain ⟨rest, rfl, hrest⟩ := hc
        refine ⟨rest ++ [c], rfl, ?_⟩
        have : c ≠ .start := by rintro rfl; cases message
        simpa [hrest] using this.symm
      · rw [List.append_nil, Option.toList_some, served_concat cs message, hm, mailbox,
          List.append_assoc, List.singleton_append]
      · rw [List.append_nil, stopping, status, h.stops]
      · exact fun hmem => List.mem_append_left _ (h.close (by simpa using hmem))
    | absent hl | fresh hl | left hl | gone hl => simp [before] at hl
  | leaves rest before loop mailbox emptied status attempted _ stopping =>
    simp only [Option.toList_none, List.append_nil]
    cases h.stage with
    | underWay hl hs ha hc hm =>
      exact ⟨.left loop (status ▸ hs) (attempted.trans ha) hc ⟨rest, hm.trans (by rw [mailbox])⟩,
        by rw [stopping, status, h.stops], h.close⟩
    | absent hl | fresh hl | left hl | gone hl => simp [before] at hl
  | vanishes _ before loop emptied status attempted _ stopping =>
    simp only [Option.toList_none, List.append_nil]
    cases h.stage with
    | absent hl hs hc hm =>
      exact ⟨.gone loop (status.trans hs) hc, by rw [stopping, status, h.stops], h.close⟩
    | fresh hl | left hl | gone hl => simp [before] at hl
    | underWay hl => simp [before] at hl

end Kept

/-! ### Any history -/

namespace Effect

variable {a a' : Agent J} {m : Move J} {c? : Option (Call J)} {new : List (Message J)}

theorem startAttempted (he : Effect a m a' c? new) (h : a.startAttempted = true) :
    a'.startAttempted = true := by
  cases he with
  | rests _ _ _ attempted => exact attempted h
  | starts _ _ _ _ _ attempted => exact attempted
  | sends _ _ _ _ _ _ attempted | stops _ _ _ _ _ _ _ attempted => exact attempted.trans h
  | halts _ _ _ _ attempted => exact attempted.trans h
  | closes _ _ _ _ attempted | begins _ _ _ _ attempted => exact attempted.trans h
  | handles _ _ _ _ _ _ _ attempted | leaves _ _ _ _ _ _ attempted => exact attempted.trans h
  | vanishes _ _ _ _ _ attempted => exact attempted.trans h

theorem absent (he : Effect a m a' c? new) (hl : a.loop = .absent) :
    a'.startAttempted = true ∨ a'.loop = .absent ∨ m = .release := by
  cases he with
  | rests loop => exact .inr (.inl (by simpa [hl] using loop))
  | sends _ _ _ loop | halts loop | stops _ loop => exact .inr (.inl (loop.trans hl))
  | starts _ _ _ _ _ attempted => exact .inl attempted
  | vanishes move => exact .inr (.inr move)
  | closes before | begins before | handles _ _ before | leaves _ before => simp [hl] at before

theorem exited (he : Effect a m a' c? new) (hl : a.loop = .exited)
    (hm : m.isTryStart = true → a.startAttempted = true) : a'.loop = .exited := by
  cases he with
  | rests loop => simpa [hl] using loop
  | sends _ _ isOpen => exact absurd hl isOpen
  | halts loop | stops _ loop => exact loop.trans hl
  | starts move before => exact absurd (before.symm.trans (hm move)) (by simp)
  | closes before | begins before | handles _ _ before | leaves _ before => simp [hl] at before
  | vanishes _ before => simp [hl] at before

theorem unstarted (he : Effect a m a' c? new) (hl : a.loop = .absent ∨ a.loop = .exited) :
    (m.isTryStart = true ∧ a.startAttempted = false ∧ a'.loop ≠ a.loop) ∨
      c? = none ∧ (a'.loop = .absent ∨ a'.loop = .exited) := by
  cases he with
  | rests loop =>
    refine .inr ⟨rfl, ?_⟩
    rcases loop with loop | ⟨c, before, -⟩
    · rwa [loop]
    · simp [before] at hl
  | sends _ _ _ loop | halts loop | stops _ loop => exact .inr ⟨rfl, by rwa [loop]⟩
  | starts move before loop =>
    exact .inl ⟨move, before, by rcases hl with hl | hl <;> simp [loop, hl]⟩
  | vanishes _ _ loop => exact .inr ⟨rfl, .inr loop⟩
  | closes before | begins before | handles _ _ before | leaves _ before => simp [before] at hl

/-- A started agent does not wait for its start again. -/
theorem started (he : Effect a m a' c? new) (hs : a.status ≠ .waitingForStart) :
    a'.status ≠ .waitingForStart := by
  cases he with
  | rests _ _ status | sends _ _ _ _ _ status | closes _ _ _ status => exact status ▸ hs
  | begins _ _ _ status | handles _ _ _ _ _ _ status | leaves _ _ _ _ _ status => exact status ▸ hs
  | vanishes _ _ _ _ status | stops _ _ _ _ _ _ status => exact status ▸ hs
  | halts _ _ _ status | starts _ _ _ _ status => simp [status]

end Effect

/-- Whether an agent whose loop runs was started. -/
def Roused (a : Agent J) : Prop :=
  a.loop = .absent ∨ a.loop = .exited ∨ a.status ≠ .waitingForStart

theorem Roused.started {a : Agent J} (h : a.Roused) (hl : a.loop ≠ .absent)
    (hl' : a.loop ≠ .exited) : a.status ≠ .waitingForStart :=
  (h.resolve_left hl).resolve_left hl'

theorem Roused.effect {a a' : Agent J} {m : Move J} {c? : Option (Call J)}
    {new : List (Message J)} (h : a.Roused) (he : Effect a m a' c? new) : a'.Roused := by
  -- A loop that is at work has been started, and only the start puts one there.
  have still (hl : a'.loop = a.loop) (hs : a.status ≠ .waitingForStart →
      a'.status ≠ .waitingForStart) : a'.Roused :=
    h.imp hl.trans (Or.imp hl.trans hs)
  have awake (hl : a.loop ≠ .absent) (hl' : a.loop ≠ .exited) : a'.Roused :=
    .inr (.inr (he.started (h.started hl hl')))
  cases he with
  | rests loop _ status =>
    rcases loop with loop | ⟨c, before, -⟩
    · exact still loop fun hs => status ▸ hs
    · exact awake (by simp [before]) (by simp [before])
  | sends _ _ _ loop _ status => exact still loop fun hs => status ▸ hs
  | stops _ loop _ _ _ _ status => exact still loop fun hs => status ▸ hs
  | halts _ _ _ status | starts _ _ _ _ status => exact .inr (.inr (by simp [status]))
  | closes before | begins before => exact awake (by simp [before]) (by simp [before])
  | handles _ _ before => exact awake (by simp [before]) (by simp [before])
  | leaves _ _ loop | vanishes _ _ loop => exact .inr (.inl loop)

theorem started_play {a : Agent J} (hs : a.status ≠ .waitingForStart) (moves : List (Move J)) :
    (a.play moves).2.status ≠ .waitingForStart := by
  induction moves using List.reverseRecOn with
  | nil => exact hs
  | append_singleton moves m ih =>
    rw [play_concat]
    exact (effect_move (a.play moves).2 m).started ih

theorem Roused.play {a : Agent J} (h : a.Roused) (moves : List (Move J)) :
    (a.play moves).2.Roused := by
  induction moves using List.reverseRecOn with
  | nil => exact h
  | append_singleton moves m ih =>
    rw [play_concat]
    exact ih.effect (effect_move (a.play moves).2 m)

theorem startAttempted_play {a : Agent J} (h : a.startAttempted = true) (moves : List (Move J)) :
    (a.play moves).2.startAttempted = true := by
  induction moves using List.reverseRecOn with
  | nil => exact h
  | append_singleton moves m ih =>
    rw [play_concat]
    exact (effect_move (a.play moves).2 m).startAttempted ih

/-- Whether there is no loop although a start was attempted. -/
def Loopless (a : Agent J) : Prop :=
  a.startAttempted = true ∧ (a.loop = .absent ∨ a.loop = .exited)

/-- There is one chance to start an agent. -/
theorem Loopless.play {a : Agent J} (h : a.Loopless) (moves : List (Move J)) :
    (a.play moves).2.Loopless := by
  induction moves using List.reverseRecOn with
  | nil => exact h
  | append_singleton moves m ih =>
    rw [play_concat]
    have he := effect_move (a.play moves).2 m
    refine ⟨he.startAttempted ih.1, ?_⟩
    rcases he.unstarted ih.2 with ⟨-, hno, -⟩ | ⟨-, hl⟩
    · exact absurd (ih.1.symm.trans hno) (by simp)
    · exact hl

/-- An agent that was not started is gone only if it was let go. -/
theorem attempted_play {a : Agent J} (hl : a.loop = .absent) (moves : List (Move J)) :
    (a.play moves).2.startAttempted = true ∨ (a.play moves).2.loop = .absent ∨
      .release ∈ moves := by
  induction moves using List.reverseRecOn with
  | nil => exact .inr (.inl hl)
  | append_singleton moves m ih =>
    rw [play_concat]
    have he := effect_move (a.play moves).2 m
    rcases ih with ih | ih | ih
    · exact .inl (he.startAttempted ih)
    · exact (he.absent ih).imp_right (Or.imp_right fun h => by simp [h])
    · exact .inr (.inr (List.mem_append_left _ ih))

/-- A loop that has left stays away: who could start the agent again has let go of it. -/
theorem exited_move {name : String} {period : Option Nat} {a : Agent J}
    (ha : new name period = .ok a) {moves : List (Move J)} {m : Move J}
    (ho : Owned (moves ++ [m])) (hl : (a.play moves).2.loop = .exited) :
    ((a.play moves).2.move m).2.loop = .exited := by
  obtain ⟨-, -, hm⟩ := List.pairwise_append.mp ho
  refine (effect_move _ m).exited hl fun hs => ?_
  have unstarted : a.loop = .absent := by rw [new_eq_ok ha]
  rcases attempted_play unstarted moves with h | h | h
  · exact h
  · simp [hl] at h
  · simp [hm _ h m (by simp) rfl] at hs

theorem kept_play {name : String} {period : Option Nat} {a : Agent J}
    (ha : new name period = .ok a) {moves : List (Move J)} (ho : Owned moves) :
    (a.play moves).2.Kept (calls (a.play moves).1) (a.accepted moves) := by
  have hnew := new_eq_ok ha
  induction moves using List.reverseRecOn with
  | nil =>
    subst hnew
    exact ⟨.absent rfl rfl rfl rfl, rfl, fun h => by cases h⟩
  | append_singleton moves m ih =>
    rw [play_concat, calls_concat, accepted_concat]
    exact (ih (List.pairwise_append.mp ho).1).effect (effect_move _ m) (exited_move ha ho)

/-! ### Starts -/

/-- Whether the handler was consulted about a start. -/
def consults (e : Move J × Answer J) : Bool :=
  match e.2 with
  | .status _ consulted => consulted
  | _ => false

/-- Whether the handler was consulted about a start and approved it. -/
def approves (e : Move J × Answer J) : Bool :=
  match e.1 with
  | .tryStart true _ => consults e
  | _ => false

/-- Whether the loop has left, by an entry. -/
def exits (e : Move J × Answer J) : Bool :=
  match e.2 with
  | .turn (some (.exit _)) => true
  | _ => false

/-- The handler is consulted by the first attempt alone. -/
theorem consults_move {a : Agent J} {m : Move J} (h : consults (m, (a.move m).1) = true) :
    a.startAttempted = false ∧ (a.move m).2.startAttempted = true := by
  cases m with
  | tryStart approved now =>
    have unattempted : a.startAttempted = false := by simpa [consults, move] using h
    refine ⟨unattempted, ?_⟩
    cases approved <;> simp [move, tryStart, unattempted]
  | post | halt | sendStop | strike | settle | take =>
    simp only [move] at h
    split at h <;> cases h
  | wake | doze | release | finish => cases h

theorem countP_consults_play (a : Agent J) (moves : List (Move J)) :
    (a.play moves).1.countP consults ≤
      if (a.play moves).2.startAttempted then 1 else 0 := by
  induction moves using List.reverseRecOn with
  | nil => simp [play]
  | append_singleton moves m ih =>
    have he := effect_move (a.play moves).2 m
    rw [play_concat, List.countP_append, List.countP_singleton]
    split
    · next h =>
      obtain ⟨before, after⟩ := consults_move h
      simpa [before, after] using ih
    · refine Nat.le_trans ih ?_
      split
      · next h => simp [he.startAttempted h]
      · exact Nat.zero_le _

/-- A start takes place by an attempt that was approved. -/
theorem approves_move {a : Agent J} {m : Move J} (hm : m.isTryStart = true)
    (ha : a.startAttempted = false) (hl : (a.move m).2.loop ≠ a.loop) :
    approves (m, (a.move m).1) = true := by
  cases m with
  | tryStart approved now =>
    cases approved with
    | true => simp [approves, consults, move, ha]
    | false => simp [move, tryStart, ha] at hl
  | post | halt | sendStop | wake | strike | settle | doze | release | take | finish => cases hm

/-- Without an approved start there is no loop that could call the handler. -/
theorem calls_of_unapproved {a : Agent J} (hl : a.loop = .absent) (moves : List (Move J)) :
    (a.play moves).1.any approves = true ∨ calls (a.play moves).1 = [] ∧
      ((a.play moves).2.loop = .absent ∨ (a.play moves).2.loop = .exited) := by
  induction moves using List.reverseRecOn with
  | nil => exact .inr ⟨rfl, .inl hl⟩
  | append_singleton moves m ih =>
    rw [play_concat, List.any_append, calls_concat]
    rcases ih with ih | ⟨none, loop⟩
    · exact .inl (by simp [ih])
    · rcases (effect_move (a.play moves).2 m).unstarted loop with ⟨hm, ha, hl⟩ | ⟨hcall, hl⟩
      · exact .inl (by simp [approves_move hm ha hl])
      · exact .inr ⟨by simp [none, hcall], hl⟩

/-! ### The order of a whole history -/

theorem exits_move {a : Agent J} {m : Move J} (h : exits (m, (a.move m).1) = true) :
    a.loop = .waiting ∧ (a.move m).2.loop = .exited := by
  cases m with
  | take =>
    simp only [move] at h ⊢
    split at h
    · next t a' ht =>
      cases t with
      | call c => cases h
      | exit dropped =>
        have := exits_of_take ht
        exact ⟨this.before, this.loop⟩
    · cases h
  | post | halt | sendStop | strike | settle =>
    simp only [move] at h
    split at h <;> cases h
  | tryStart | wake | doze | release | finish => cases h

/-- A loop that has left had called the handler, and stays away. -/
theorem exits_play {name : String} {period : Option Nat} {a : Agent J}
    (ha : new name period = .ok a) {moves : List (Move J)} (ho : Owned moves)
    (h : (a.play moves).1.any exits = true) :
    (a.play moves).2.loop = .exited ∧ (a.play moves).2.startAttempted = true ∧
      calls (a.play moves).1 ≠ [] := by
  induction moves using List.reverseRecOn with
  | nil => cases h
  | append_singleton moves m ih =>
    have ho := (List.pairwise_append.mp ho).1
    have he := effect_move (a.play moves).2 m
    rw [play_concat, List.any_append, Bool.or_eq_true] at h
    rw [play_concat, calls_concat]
    rcases h with h | h
    · obtain ⟨loop, attempted, hcalls⟩ := ih ho h
      exact ⟨he.exited loop fun _ => attempted, he.startAttempted attempted, by simp [hcalls]⟩
    · obtain ⟨waiting, left⟩ := exits_move (by simpa using h)
      cases (kept_play ha ho).stage with
      | underWay _ _ attempted hcalls =>
        obtain ⟨rest, hcalls, -⟩ := hcalls
        exact ⟨left, he.startAttempted attempted, by simp [hcalls]⟩
      | absent loop | fresh loop | left loop | gone loop => simp [waiting] at loop

/-- The order in which the handler of the agent is called in the course of moves. -/
structure MailboxOrder (a : Agent J) (moves : List (Move J)) : Prop where
  /-- The call at the start comes first, and once. -/
  begins : calls (a.play moves).1 = [] ∨
    ∃ rest, calls (a.play moves).1 = .start :: rest ∧ .start ∉ rest
  /-- The messages are handled in the order in which they were accepted, each once at most. -/
  inOrder : served (calls (a.play moves).1) <+: a.accepted moves
  /-- The handler is consulted about one start at most. -/
  consulted : (a.play moves).1.countP consults ≤ 1
  /-- Without an approved start it is never called. -/
  unapproved : (a.play moves).1.any approves = false → calls (a.play moves).1 = []
  /-- Once the loop has left, it has been called for the stop once, and before that for all that
  was accepted before the stop was requested. -/
  left : (a.play moves).1.any exits = true → ∃ front late,
    calls (a.play moves).1 = .start :: front ++ .stop :: late ∧ .stop ∉ front ∧ .stop ∉ late ∧
    ∀ before after, moves = before ++ .sendStop :: after →
      ((a.play before).2.move .sendStop).1 = .stopping true → served front = a.accepted before

/-- A request to stop that is answered with yes puts the stop message into the mailbox. -/
theorem accepts_sendStop {a : Agent J} (h : (a.move .sendStop).1 = .stopping true) :
    a.accepts .sendStop = [.stop] := by
  simp only [move] at h
  split at h
  · next howed =>
    have hopen : a.isOpen = true := by simpa using h
    have hsend := send_of_open (a := { a with stopping := false }) hopen .stop
    simp [accepts, move, sendHalt, howed, hsend]
  · cases h

/-- **Mailbox order.** -/
theorem mailboxOrder {name : String} {period : Option Nat} {a : Agent J}
    (ha : new name period = .ok a) {moves : List (Move J)} (ho : Owned moves) :
    a.MailboxOrder moves := by
  have kept := kept_play ha ho
  have unstarted : a.loop = .absent := by rw [new_eq_ok ha]
  constructor
  case begins => exact kept.begins
  case inOrder => exact kept.inOrder
  case consulted =>
    have := countP_consults_play a moves
    split at this <;> omega
  case unapproved =>
    intro h
    rcases calls_of_unapproved unstarted moves with h' | ⟨h', -⟩
    · simp [h] at h'
    · exact h'
  case left =>
    intro h
    obtain ⟨loop, -, hcalls⟩ := exits_play ha ho h
    obtain ⟨front, late, lost, hcs, hfront, hlate, hacc, hbefore, hafter⟩ :=
      kept.parted loop hcalls
    refine ⟨front, late, hcs, hfront, hlate, fun before after hmoves hstop => ?_⟩
    subst hmoves
    rw [accepted_append, accepted, accepts_sendStop hstop, List.singleton_append] at hacc
    exact ((List.append_cons_inj_of_notMem hbefore hafter).mp hacc.symm).1

/-- Jobs wait before the start and are posted while the handler is at work, one of them between the
two steps of the request to stop and one behind it; a heartbeat comes between. -/
def dayOfWork : List (Move Nat) :=
  [.post 1, .tryStart true 0, .tryStart false 0, .take, .post 2, .finish, .wake, .strike, .settle,
    .doze, .take, .finish, .take, .halt, .post 3, .sendStop, .post 4, .finish, .take, .finish,
    .take, .finish, .take, .finish, .take, .finish, .take, .release]

/-- An agent whose heartbeat is due every twenty milliseconds. -/
def clerk : Agent Nat :=
  ⟨"clerk", some 20000, .waitingForStart, false, [], .absent, false, 0, 0, none, .asleep, false⟩

theorem new_clerk : new "clerk" (some 20000) = .ok clerk := rfl

theorem mailboxOrder_of_dayOfWork :
    new "clerk" (some 20000) = .ok clerk ∧ Owned dayOfWork ∧
      (clerk.play dayOfWork).1.any exits = true ∧ clerk.MailboxOrder dayOfWork := by
  have owned : Owned dayOfWork := by
    unfold Owned
    decide
  exact ⟨new_clerk, owned, by decide, mailboxOrder new_clerk owned⟩

/-- What the handler was called for on that day. -/
example : calls (clerk.play dayOfWork).1 =
    [.start, .job 1, .job 2, .heartbeat 0, .job 3, .stop, .job 4] := by
  decide

end Agent

end PartyGraph
