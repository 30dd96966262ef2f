import PartyGraph.Proofs.Agent.Order

/-!
# Heartbeats do not overlap

Timer and loop share a gate. The timer shuts it when it takes a tick and then puts a heartbeat into
the mailbox, and the loop opens it when the handler is done with that heartbeat, well or badly. In
between the heartbeat is in one of three places: the hand of the timer, the mailbox or the hands of
the handler. A tick that finds the gate shut is counted and leads to nothing.

So heartbeats are a token that is in one place at a time. It gets lost only at the end: the loop
drops what it leaves behind, and refuses what the timer still sends. Then the gate stays shut.

A request to stop asks the timer to end. That keeps it from beginning to work again, but a timer
that is at work takes ticks and sends heartbeats until it is done, behind the stop message too.

## Main definitions

* `Agent.heartbeats`: the heartbeats that wait or are being handled.
* `Agent.ticks`, `Agent.refusals`, `Agent.counts`: the ticks of a history, the heartbeats that were
  refused in it, and the counts that the handler is given.
* `Agent.Gate`, `Agent.Pulse`: what an agent has to do with heartbeats, and all that a move can do
  to it.
* `Agent.Gate.Balanced`: what gate, counters and history have in common at every time.
* `Agent.Ended`: a timer that was asked to end.
* `Agent.Heartbeats`: the heartbeats of a whole history.

## Main results

* `Agent.pulse_move`: the cases of a move.
* `Agent.Gate.Balanced.pulse`, `Agent.balanced_play`: one move, and any history.
* `Agent.Ended.play`: a timer that was asked to end and is not at work takes no tick any more.
-/

namespace PartyGraph

namespace Agent

variable {J : Type}

/-! ### Heartbeats -/

/-- Whether a message is a heartbeat. -/
def Message.isHeartbeat : Message J → Bool
  | heartbeat => true
  | _ => false

/-- The count that the handler is given, if it is called for a heartbeat. -/
def Call.count? : Call J → Option Nat
  | heartbeat n => some n
  | _ => none

/-- Whether the handler is at work on a heartbeat. -/
def Loop.isBeating : Loop J → Bool
  | calling c => c.count?.isSome
  | _ => false

/-- The number of heartbeats among messages. -/
def beatsAmong (ms : List (Message J)) : Nat := ms.countP Message.isHeartbeat

/-- The heartbeats that wait or are being handled. -/
def heartbeats (a : Agent J) : Nat := beatsAmong a.mailbox + a.loop.isBeating.toNat

/-- Heartbeats in the hand of the timer. -/
def Timer.beats : Timer → Nat
  | sending => 1
  | asleep | awake | skipping => 0

/-- Ticks in the hand of the timer. -/
def Timer.ticks : Timer → Nat
  | sending | skipping => 1
  | asleep | awake => 0

theorem Timer.beats_eq_zero {t : Timer} (h : t.ticks = 0) : t.beats = 0 := by
  cases t with
  | sending | skipping => cases h
  | asleep | awake => rfl

/-- Whether an answer tells of a tick. -/
def Answer.isTick : Answer J → Bool
  | .ticked _ => true
  | _ => false

/-- Whether an answer tells of a heartbeat that was refused. -/
def Answer.isRefusal : Answer J → Bool
  | .beat false => true
  | _ => false

/-- The number of ticks in a history. -/
def ticks (history : List (Move J × Answer J)) : Nat := history.countP fun e => e.2.isTick

/-- The number of heartbeats in a history that were refused. -/
def refusals (history : List (Move J × Answer J)) : Nat := history.countP fun e => e.2.isRefusal

/-- The counts that the handler is given in a history, in order. -/
def counts (history : List (Move J × Answer J)) : List Nat := (calls history).filterMap Call.count?

theorem ticks_concat (history : List (Move J × Answer J)) (m : Move J) (answer : Answer J) :
    ticks (history ++ [(m, answer)]) = ticks history + answer.isTick.toNat := by
  rw [ticks, ticks, List.countP_append, List.countP_singleton]
  cases answer.isTick <;> rfl

theorem refusals_concat (history : List (Move J × Answer J)) (m : Move J) (answer : Answer J) :
    refusals (history ++ [(m, answer)]) = refusals history + answer.isRefusal.toNat := by
  rw [refusals, refusals, List.countP_append, List.countP_singleton]
  cases answer.isRefusal <;> rfl

theorem counts_concat (history : List (Move J × Answer J)) (m : Move J) (answer : Answer J) :
    counts (history ++ [(m, answer)]) =
      counts history ++ (answer.call?.bind Call.count?).toList := by
  rw [counts, calls_concat, List.filterMap_append]
  cases answer.call? with
  | none => rfl
  | some c => cases h : c.count? <;> simp [counts, h]

theorem beatsAmong_append (ms ms' : List (Message J)) :
    beatsAmong (ms ++ ms') = beatsAmong ms + beatsAmong ms' := List.countP_append

/-! ### What a move does -/

/-- What an agent has to do with heartbeats. -/
structure Gate where
  busy : Bool
  timer : Timer
  /-- The heartbeats that wait. -/
  waiting : Nat
  beating : Bool
  beats : Nat
  skipped : Nat
  /-- Whether the loop has left. -/
  left : Bool

/-- The gate of an agent. -/
def gate (a : Agent J) : Gate :=
  ⟨a.busy, a.timer, beatsAmong a.mailbox, a.loop.isBeating, a.beats, a.skipped, a.isFinished⟩

/-- What a move does to the gate `g`, which is `g'` afterwards, when there are `ticked` ticks, the
handler is given the count `count?`, and `posted` heartbeats are accepted and `refused` refused. -/
inductive Pulse (g : Gate) :
    Gate → (ticked : Nat) → (count? : Option Nat) → (posted refused : Nat) → Prop
  /-- Nothing that concerns heartbeats. -/
  | still : Pulse g g 0 none 0 0
  /-- The timer begins to work or is done. -/
  | turns (t : Timer) (before : g.timer.ticks = 0) (after : t.ticks = 0) :
      Pulse g { g with timer := t } 0 none 0 0
  /-- A tick finds the gate open and shuts it. -/
  | shuts (awake : g.timer = .awake) (free : g.busy = false) :
      Pulse g { g with timer := .sending, busy := true } 1 none 0 0
  /-- A tick finds the gate shut. -/
  | blocks (awake : g.timer = .awake) : Pulse g { g with timer := .skipping } 1 none 0 0
  /-- The heartbeat of a tick is accepted. -/
  | posts (sending : g.timer = .sending) (isOpen : g.left = false) :
      Pulse g { g with timer := .awake, waiting := g.waiting + 1 } 0 none 1 0
  /-- It is refused. -/
  | refuses (sending : g.timer = .sending) (left : g.left = true) :
      Pulse g { g with timer := .asleep } 0 none 0 1
  /-- A tick is counted as skipped. -/
  | skips (skipping : g.timer = .skipping) :
      Pulse g { g with timer := .awake, skipped := g.skipped + 1 } 0 none 0 0
  /-- The handler is called for a heartbeat. -/
  | takes (n : Nat) (waiting : g.waiting = n + 1) (idle : g.beating = false) :
      Pulse g { g with waiting := n, beating := true, beats := g.beats + 1 } 0 (some g.beats) 0 0
  /-- The handler is done with a heartbeat, and the gate is opened. -/
  | done (beating : g.beating = true) (isOpen : g.left = false) :
      Pulse g { g with beating := false, busy := false } 0 none 0 0
  /-- The loop leaves, and the mailbox is dropped. -/
  | leaves (idle : g.beating = false) :
      Pulse g { g with waiting := 0, left := true } 0 none 0 0

/-- The heartbeats in the mailbox of `b` behind those messages that `a` had. -/
def arrivals (a b : Agent J) : Nat := beatsAmong (b.mailbox.drop a.mailbox.length)

section Pulse

variable {a : Agent J} {cs : List (Call J)} {acc : List (Message J)}

/-- Nothing is put into the mailbox. -/
theorem Pulse.unposted {b : Agent J} {ticked refused : Nat} {count? : Option Nat}
    (h : Pulse a.gate b.gate ticked count? 0 refused) (mailbox : b.mailbox = a.mailbox) :
    Pulse a.gate b.gate ticked count? (a.arrivals b) refused := by
  rw [arrivals, mailbox, List.drop_length]
  exact h

/-- Nothing that concerns heartbeats is changed. -/
theorem still_of_eq {b : Agent J} (mailbox : b.mailbox = a.mailbox) (gate : b.gate = a.gate) :
    Pulse a.gate b.gate 0 none (a.arrivals b) 0 := by
  have same : Pulse a.gate b.gate 0 none 0 0 := by
    rw [gate]
    exact .still
  exact same.unposted mailbox

/-- A message that is no heartbeat is put into the mailbox. -/
theorem still_send {b : Agent J} {w : Message J} (hw : w.isHeartbeat = false)
    (mailbox : b.mailbox = a.mailbox) (gate : b.gate = a.gate) :
    Pulse a.gate (b.send w).gate 0 none (a.arrivals (b.send w)) 0 := by
  by_cases hl : b.isOpen = true
  · have hnone : beatsAmong [w] = 0 := by simp [beatsAmong, hw]
    have hgate : (b.send w).gate = a.gate := by
      rw [send_of_open hl, ← gate]
      simp only [Agent.gate, beatsAmong_append, hnone, Nat.add_zero]
      rfl
    rw [hgate, send_of_open hl, arrivals, mailbox, List.drop_left, hnone]
    exact .still
  · rw [send, if_neg hl]
    exact still_of_eq mailbox gate

theorem pulse_tryStart (hk : a.Kept cs acc) (approved : Bool) (now : Nat)
    (stays : a.loop = .exited → (a.tryStart approved now).loop = .exited) :
    Pulse a.gate (a.tryStart approved now).gate 0 none
      (a.arrivals (a.tryStart approved now)) 0 := by
  rw [tryStart] at stays ⊢
  split at stays
  · next h =>
    rw [if_pos h]
    exact still_of_eq rfl rfl
  · next h =>
    rw [if_neg h]
    split at stays
    · next happroved =>
      rw [if_pos happroved]
      have hl : a.loop = .absent := by
        cases hk.stage with
        | absent hl => exact hl
        | gone hl => exact absurd (stays hl) (by simp)
        | fresh _ _ ha | underWay _ _ ha | left _ _ ha => exact absurd ha h
      exact still_of_eq rfl (by simp [gate, isFinished, isOpen, hl, Loop.isBeating])
    · next happroved =>
      rw [if_neg happroved]
      exact still_of_eq rfl rfl

theorem pulse_abandon (a : Agent J) :
    Pulse a.gate a.abandon.gate 0 none (a.arrivals a.abandon) 0 := by
  rw [abandon]
  split
  · next hl =>
    have idle : a.gate.beating = false := by simp [gate, hl, Loop.isBeating]
    have hgate : gate { a with due := none, mailbox := ([] : List (Message J)), loop := .exited } =
        { a.gate with waiting := 0, left := true } := by
      simp [gate, hl, Loop.isBeating, beatsAmong, isFinished, isOpen]
    rw [arrivals, List.drop_nil, hgate]
    exact .leaves idle
  · rw [halt]
    split <;> exact still_of_eq rfl rfl

theorem pulse_wake (a : Agent J) : Pulse a.gate a.wake.gate 0 none (a.arrivals a.wake) 0 := by
  rw [wake]
  split
  · next h =>
    have asleep : a.timer = .asleep := by simpa using (Bool.and_eq_true_iff.mp h).2
    have begins : Pulse a.gate { a.gate with timer := .awake } 0 none 0 0 :=
      .turns .awake (by simp [gate, asleep, Timer.ticks]) rfl
    exact begins.unposted (b := { a with timer := .awake }) rfl
  · exact still_of_eq rfl rfl

theorem pulse_doze (a : Agent J) : Pulse a.gate a.doze.gate 0 none (a.arrivals a.doze) 0 := by
  rw [doze]
  split
  · next h =>
    have ends : Pulse a.gate { a.gate with timer := .asleep } 0 none 0 0 :=
      .turns .asleep (by simp [gate, h, Timer.ticks]) rfl
    exact ends.unposted (b := { a with timer := .asleep }) rfl
  · exact still_of_eq rfl rfl

/-- A tick shuts the gate or finds it shut. -/
theorem pulse_strike (a : Agent J) :
    Pulse a.gate a.strike.gate (a.move .strike).1.isTick.toNat none (a.arrivals a.strike) 0 := by
  by_cases h : a.timer = .awake
  · have hticked : (a.move .strike).1 = .ticked (!a.busy) := if_pos h
    rw [hticked, strike, h]
    dsimp only
    split
    · next hb => exact Pulse.unposted (.blocks h) rfl
    · next hb => exact Pulse.unposted (.shuts h (Bool.not_eq_true _ ▸ hb)) rfl
  · have hnone : (a.move .strike).1 = .none := if_neg h
    have hsame : a.strike = a := by
      rw [strike]
      split
      · next h' => exact absurd h' h
      · rfl
    rw [hnone, hsame]
    exact still_of_eq rfl rfl

/-- What a tick leads to. -/
theorem pulse_settle (a : Agent J) :
    Pulse a.gate a.settle.gate 0 none (a.arrivals a.settle)
      (a.move .settle).1.isRefusal.toNat := by
  by_cases h : a.timer = .sending
  · have hbeat : (a.move .settle).1 = .beat a.isOpen := if_pos h
    rw [hbeat, settle, h]
    dsimp only
    cases hl : a.isOpen with
    | true =>
      have posted : Pulse a.gate { a.gate with timer := .awake, waiting := a.gate.waiting + 1 }
          0 none 1 0 := .posts h (by simp [gate, isFinished, hl])
      have hgate : gate { a with timer := .awake, mailbox := a.mailbox ++ [.heartbeat] } =
          { a.gate with timer := .awake, waiting := a.gate.waiting + 1 } := by
        simp [gate, beatsAmong, Message.isHeartbeat, isFinished, isOpen]
      rw [if_pos rfl, send_of_open (by exact hl), arrivals, List.drop_left, hgate]
      exact posted
    | false => exact Pulse.unposted (.refuses h (by simp [gate, isFinished, hl])) rfl
  · have hnone : (a.move .settle).1 = .none := if_neg h
    rw [hnone, settle]
    split
    · next h' => exact absurd h' h
    · next h' => exact Pulse.unposted (.skips h') rfl
    · exact still_of_eq rfl rfl

/-- A message is taken out of the mailbox. -/
theorem Pulse.taken {b : Agent J} {w : Message J} {count? : Option Nat}
    (h : Pulse a.gate b.gate 0 count? 0 0) (hm : a.mailbox = w :: b.mailbox) :
    Pulse a.gate b.gate 0 count? (a.arrivals b) 0 := by
  rw [arrivals, hm, List.drop_of_length_le (by simp)]
  exact h

/-- The handler is called for a message that is no heartbeat. -/
theorem still_take {b : Agent J} {c : Call J} {w : Message J} (hl : a.loop = .waiting)
    (hm : a.mailbox = w :: b.mailbox) (hw : w.isHeartbeat = false) (hc : c.count? = none)
    (hb : b = { a with mailbox := b.mailbox, loop := .calling c }) :
    Pulse a.gate b.gate 0 none (a.arrivals b) 0 := by
  refine Pulse.taken ?_ hm
  have hgate : b.gate = a.gate := by
    rw [hb]
    simp [gate, hl, hm, hc, beatsAmong, hw, Loop.isBeating, isFinished, isOpen]
  rw [hgate]
  exact .still

theorem pulse_take {t : Turn J} {a' : Agent J} (h : a.take = some (t, a')) :
    Pulse a.gate a'.gate 0 ((Answer.turn (some t)).call?.bind Call.count?) (a.arrivals a') 0 := by
  rw [take] at h
  split at h
  · next hl =>
    cases h
    exact still_of_eq rfl (by simp [gate, hl, Loop.isBeating, Call.count?, isFinished, isOpen])
  · next hl hm =>
    cases h
    exact still_take hl hm rfl rfl rfl
  · next rest hl hm =>
    cases h
    have one : beatsAmong a.mailbox = beatsAmong rest + 1 := by
      rw [hm]
      exact List.countP_cons_of_pos rfl
    have given : Pulse a.gate { a.gate with
        waiting := beatsAmong rest, beating := true, beats := a.beats + 1 } 0 (some a.beats) 0 0 :=
      .takes (beatsAmong rest) one (by simp [gate, hl, Loop.isBeating])
    have hgate : gate { a with
          mailbox := rest, loop := .calling (.heartbeat a.beats), beats := a.beats + 1 } =
        { a.gate with waiting := beatsAmong rest, beating := true, beats := a.beats + 1 } := by
      simp [gate, hl, Loop.isBeating, Call.count?, isFinished, isOpen]
    exact Pulse.taken (hgate ▸ given) hm
  · next hl hm =>
    cases h
    exact still_take hl hm rfl rfl rfl
  · next hl hm =>
    cases h
    have left : Pulse a.gate { a.gate with waiting := 0, left := true } 0 none 0 0 :=
      .leaves (by simp [gate, hl, Loop.isBeating])
    have hgate : gate { a with mailbox := ([] : List (Message J)), loop := .exited } =
        { a.gate with waiting := 0, left := true } := by
      simp [gate, hl, Loop.isBeating, beatsAmong, isFinished, isOpen]
    rw [arrivals, List.drop_nil, hgate]
    exact left
  · cases h

theorem pulse_finish (a : Agent J) :
    Pulse a.gate a.finish.gate 0 none (a.arrivals a.finish) 0 := by
  rw [finish]
  split
  · next n hl =>
    have done : Pulse a.gate { a.gate with beating := false, busy := false } 0 none 0 0 :=
      .done (by simp [gate, hl, Loop.isBeating, Call.count?])
        (by simp [gate, hl, isFinished, isOpen])
    have hgate : gate { a with loop := .waiting, busy := false } =
        { a.gate with beating := false, busy := false } := by
      simp [gate, hl, Loop.isBeating, isFinished, isOpen]
    exact Pulse.unposted (hgate ▸ done) rfl
  · next hl =>
    exact still_send rfl rfl (by simp [gate, hl, Loop.isBeating, Call.count?, isFinished, isOpen])
  · next c hbeat _ hl =>
    have hcount : c.count? = none := by
      cases c with
      | heartbeat n => exact absurd rfl (hbeat n)
      | start | job | stop => rfl
    exact still_of_eq rfl (by simp [gate, hl, Loop.isBeating, hcount, isFinished, isOpen])
  · exact still_of_eq rfl rfl

/-- The stop is requested, or the stop message is sent. -/
theorem pulse_halt (a : Agent J) : Pulse a.gate a.halt.gate 0 none (a.arrivals a.halt) 0 := by
  rw [halt]
  split <;> exact still_of_eq rfl rfl

theorem pulse_sendHalt (a : Agent J) :
    Pulse a.gate a.sendHalt.gate 0 none (a.arrivals a.sendHalt) 0 := by
  rw [sendHalt]
  split
  · exact still_send rfl rfl rfl
  · exact still_of_eq rfl rfl

theorem pulse_post (a : Agent J) (j : J) :
    Pulse a.gate (a.move (.post j)).2.gate 0 none (a.arrivals (a.move (.post j)).2) 0 := by
  by_cases hl : a.isOpen = true
  · have hmove : (a.move (.post j)).2 = a.send (.job j) := by simp [move, post, hl]
    rw [hmove]
    exact still_send rfl rfl rfl
  · have hmove : (a.move (.post j)).2 = a := by simp [move, post, hl]
    rw [hmove]
    exact still_of_eq rfl rfl

/-- Ticks and refusals are told of by the timer alone. -/
theorem isTick_move (a : Agent J) {m : Move J} (h : m ≠ .strike) :
    (a.move m).1.isTick = false := by
  cases m with
  | strike => exact absurd rfl h
  | tryStart | wake | doze | release | finish => rfl
  | post | halt | sendStop | settle | take =>
    simp only [move]
    split <;> rfl

theorem isRefusal_move (a : Agent J) {m : Move J} (h : m ≠ .settle) :
    (a.move m).1.isRefusal = false := by
  cases m with
  | settle => exact absurd rfl h
  | tryStart | wake | doze | release | finish => rfl
  | post | halt | sendStop | strike | take =>
    simp only [move]
    split <;> rfl

/-- The cases of `Pulse` are all. An agent whose loop has left stays so. -/
theorem pulse_move (hk : a.Kept cs acc) (m : Move J)
    (stays : a.loop = .exited → (a.move m).2.loop = .exited) :
    Pulse a.gate (a.move m).2.gate (a.move m).1.isTick.toNat
      ((a.move m).1.call?.bind Call.count?) (beatsAmong (a.accepts m))
      (a.move m).1.isRefusal.toNat := by
  change Pulse a.gate _ _ _ (a.arrivals (a.move m).2) _
  by_cases hm : m = .take
  · subst hm
    rw [move]
    cases h : a.take with
    | none => exact still_of_eq rfl rfl
    | some turn => exact pulse_take h
  rw [call?_move a hm]
  cases m with
  | tryStart approved now => exact pulse_tryStart hk approved now stays
  | post j =>
    rw [isTick_move a (by simp), isRefusal_move a (by simp)]
    exact pulse_post a j
  | halt =>
    rw [isTick_move a (by simp), isRefusal_move a (by simp)]
    exact pulse_halt a
  | sendStop =>
    rw [isTick_move a (by simp), isRefusal_move a (by simp)]
    exact pulse_sendHalt a
  | strike =>
    rw [isRefusal_move a (by simp)]
    exact pulse_strike a
  | settle =>
    rw [isTick_move a (by simp)]
    exact pulse_settle a
  | wake => exact pulse_wake a
  | doze => exact pulse_doze a
  | release => exact pulse_abandon a
  | take => exact absurd rfl hm
  | finish => exact pulse_finish a

end Pulse

/-! ### Any history -/

/-- What the gate of an agent has in common with its history. -/
structure Gate.Balanced (g : Gate) (ticked posted refused : Nat) (counted : List Nat) : Prop where
  /-- Besides what was handed to the handler there is one more heartbeat if the gate is shut. -/
  account : counted.length + g.busy.toNat
    = posted + refused + g.timer.beats + g.beating.toNat
  /-- It is in one of three places. -/
  token : g.left = false → g.busy.toNat = g.timer.beats + g.waiting + g.beating.toNat
  held : g.timer = .sending → g.busy = true
  handed : counted.length + g.waiting ≤ posted
  accepted : g.left = false → refused = 0
  drained : g.left = true → g.waiting = 0 ∧ g.beating = false
  ticks : ticked = posted + refused + g.skipped + g.timer.ticks
  counts : counted = List.range g.beats

namespace Gate.Balanced

variable {g g' : Gate} {ticked posted refused ticked' posted' refused' : Nat}
variable {counted : List Nat} {count? : Option Nat}

section Steps

variable (h : g.Balanced ticked posted refused counted)

include h

/-- The timer begins to work or is done. -/
theorem turns {t : Timer} (before : g.timer.ticks = 0) (after : t.ticks = 0) :
    Balanced { g with timer := t } ticked posted refused counted := by
  have beats : g.timer.beats = t.beats := by
    rw [Timer.beats_eq_zero before, Timer.beats_eq_zero after]
  exact { h with
    account := beats ▸ h.account
    token := beats ▸ h.token
    held := by
      rintro rfl
      cases after
    ticks := (before.trans after.symm) ▸ h.ticks }

/-- A tick finds the gate open and shuts it. -/
theorem shuts (awake : g.timer = .awake) (free : g.busy = false) :
    Balanced { g with timer := .sending, busy := true } (ticked + 1) posted refused counted := by
  obtain ⟨account, token, -, handed, accepted, drained, ticks, counts⟩ := h
  simp only [awake, free, Timer.beats, Timer.ticks, Bool.toNat_false] at account token ticks
  refine ⟨?_, fun hl => ?_, fun _ => rfl, handed, accepted, drained, ?_, counts⟩
  · simp only [Timer.beats, Bool.toNat_true]
    omega
  · have empty := token hl
    simp only [Timer.beats, Bool.toNat_true]
    omega
  · simp only [Timer.ticks]
    omega

/-- A tick finds the gate shut. -/
theorem blocks (awake : g.timer = .awake) :
    Balanced { g with timer := .skipping } (ticked + 1) posted refused counted := by
  obtain ⟨account, token, -, handed, accepted, drained, ticks, counts⟩ := h
  rw [awake] at account token ticks
  exact ⟨account, token, by simp, handed, accepted, drained, congrArg (· + 1) ticks, counts⟩

/-- A tick is counted as skipped. -/
theorem skips (skipping : g.timer = .skipping) :
    Balanced { g with timer := .awake, skipped := g.skipped + 1 } ticked posted refused
      counted := by
  obtain ⟨account, token, -, handed, accepted, drained, ticks, counts⟩ := h
  rw [skipping] at account token ticks
  exact ⟨account, token, by simp, handed, accepted, drained, ticks, counts⟩

/-- The heartbeat of a tick is accepted. -/
theorem posts (sending : g.timer = .sending) (isOpen : g.left = false) :
    Balanced { g with timer := .awake, waiting := g.waiting + 1 } ticked (posted + 1) refused
      counted := by
  obtain ⟨account, token, -, handed, accepted, -, ticks, counts⟩ := h
  simp only [sending, Timer.beats, Timer.ticks] at account token ticks
  refine ⟨?_, fun _ => ?_, by simp, Nat.add_le_add_right handed 1, accepted,
    fun hl => by simp [isOpen] at hl, ?_, counts⟩
  · simp only [Timer.beats]
    omega
  · have one := token isOpen
    simp only [Timer.beats]
    omega
  · simp only [Timer.ticks]
    omega

/-- It is refused. -/
theorem refuses (sending : g.timer = .sending) (left : g.left = true) :
    Balanced { g with timer := .asleep } ticked posted (refused + 1) counted := by
  obtain ⟨account, -, -, handed, -, drained, ticks, counts⟩ := h
  simp only [sending, Timer.beats, Timer.ticks] at account ticks
  have gone (hl : g.left = false) : False := by simp [left] at hl
  refine ⟨?_, fun hl => (gone hl).elim, by simp, handed, fun hl => (gone hl).elim, drained, ?_,
    counts⟩
  · simp only [Timer.beats]
    omega
  · simp only [Timer.ticks]
    omega

/-- The handler is called for a heartbeat. -/
theorem takes {n : Nat} (waiting : g.waiting = n + 1) (idle : g.beating = false) :
    Balanced { g with waiting := n, beating := true, beats := g.beats + 1 } ticked posted refused
      (counted ++ [g.beats]) := by
  obtain ⟨account, token, held, handed, accepted, drained, ticks, counts⟩ := h
  rw [idle, Bool.toNat_false] at account token
  refine ⟨?_, fun hl => ?_, held, ?_, accepted, fun hl => ?_, ticks, ?_⟩
  · simp only [List.length_append, List.length_singleton, Bool.toNat_true]
    omega
  · have one := token hl
    simp only [Bool.toNat_true]
    omega
  · simp only [List.length_append, List.length_singleton]
    omega
  · have none := (drained hl).1
    omega
  · rw [counts, List.range_succ]

/-- The handler is done with the heartbeat, which was the only one, and the gate is opened. -/
theorem done (beating : g.beating = true) (isOpen : g.left = false) :
    Balanced { g with beating := false, busy := false } ticked posted refused counted := by
  obtain ⟨account, token, -, handed, accepted, -, ticks, counts⟩ := h
  have one := token isOpen
  have atMost := Bool.toNat_le g.busy
  rw [beating, Bool.toNat_true] at account one
  refine ⟨?_, fun _ => ?_, fun hsending => ?_, handed, accepted, fun hl => ?_, ticks, counts⟩
  · simp only [Bool.toNat_false]
    omega
  · simp only [Bool.toNat_false]
    omega
  · have hand : g.timer.beats = 1 := by
      rw [show g.timer = .sending from hsending]
      rfl
    omega
  · simp [isOpen] at hl

/-- The loop leaves, and the mailbox is dropped. -/
theorem leaves (idle : g.beating = false) :
    Balanced { g with waiting := 0, left := true } ticked posted refused counted :=
  { h with
    token := fun hl => by simp at hl
    handed := Nat.le_trans (Nat.le_add_right _ _) h.handed
    accepted := fun hl => by simp at hl
    drained := fun _ => ⟨rfl, idle⟩ }

/-- What a move adds. -/
theorem pulse (hp : Pulse g g' ticked' count? posted' refused') :
    g'.Balanced (ticked + ticked') (posted + posted') (refused + refused')
      (counted ++ count?.toList) := by
  -- Only a call for a heartbeat adds a count.
  have uncalled {g : Gate} {ticked posted refused : Nat}
      (hg : g.Balanced ticked posted refused counted) :
      g.Balanced ticked posted refused (counted ++ (none : Option Nat).toList) := by
    rw [Option.toList_none, List.append_nil]
    exact hg
  cases hp with
  | still => exact uncalled h
  | turns t before after => exact uncalled (h.turns before after)
  | shuts awake free => exact uncalled (h.shuts awake free)
  | blocks awake => exact uncalled (h.blocks awake)
  | posts sending isOpen => exact uncalled (h.posts sending isOpen)
  | refuses sending left => exact uncalled (h.refuses sending left)
  | skips skipping => exact uncalled (h.skips skipping)
  | takes n waiting idle => exact h.takes waiting idle
  | done beating isOpen => exact uncalled (h.done beating isOpen)
  | leaves idle => exact uncalled (h.leaves idle)

end Steps

/-- There is at most one heartbeat. -/
theorem one (h : g.Balanced ticked posted refused counted) :
    g.timer.beats + (g.waiting + g.beating.toNat) ≤ 1 := by
  cases hl : g.left with
  | false =>
    have token := h.token hl
    have shut := Bool.toNat_le g.busy
    omega
  | true =>
    obtain ⟨waiting, beating⟩ := h.drained hl
    rw [waiting, beating]
    cases g.timer <;> simp [Timer.beats]

/-- Until the loop has left, the gate is shut exactly if there is one. -/
theorem busy_iff (h : g.Balanced ticked posted refused counted) (hl : g.left = false) :
    g.busy = true ↔ g.timer.beats + (g.waiting + g.beating.toNat) = 1 := by
  rw [← Nat.add_assoc, ← h.token hl]
  cases g.busy <;> simp

/-- Until then, every heartbeat that was accepted was handed to the handler or waits. -/
theorem posted_eq (h : g.Balanced ticked posted refused counted) (hl : g.left = false) :
    posted = counted.length + g.waiting := by
  have account := h.account
  have token := h.token hl
  have accepted := h.accepted hl
  omega

end Gate.Balanced

theorem balanced_play {name : String} {period : Option Nat} {a : Agent J}
    (ha : new name period = .ok a) {moves : List (Move J)} (ho : Owned moves) :
    (a.play moves).2.gate.Balanced (ticks (a.play moves).1) (beatsAmong (a.accepted moves))
      (refusals (a.play moves).1) (counts (a.play moves).1) := by
  have hnew := new_eq_ok ha
  induction moves using List.reverseRecOn with
  | nil =>
    subst hnew
    exact ⟨rfl, fun _ => rfl, (nomatch ·), Nat.le_refl _, fun _ => rfl, (nomatch ·), rfl, rfl⟩
  | append_singleton moves m ih =>
    have before := (List.pairwise_append.mp ho).1
    rw [play_concat, accepted_concat, ticks_concat, refusals_concat, counts_concat,
      beatsAmong_append]
    exact (ih before).pulse (pulse_move (kept_play ha before) m (exited_move ha ho))

/-! ### A timer that was asked to end -/

/-- Whether only a running agent has a timer that may begin to work. -/
def Timed (a : Agent J) : Prop := a.due.isSome = true → a.status = .running

/-- Whether the timer was asked to end, and no start will bring another. -/
structure Ended (a : Agent J) : Prop where
  due : a.due = none
  attempted : a.startAttempted = true

section Ended

variable {a a' : Agent J} {m : Move J} {c? : Option (Call J)} {new : List (Message J)}

theorem Timed.effect (h : a.Timed) (he : Effect a m a' c? new) : a'.Timed := by
  intro ht
  cases he with
  | rests _ _ status _ timer => exact status.trans (h (timer ht))
  | sends _ _ _ _ _ status _ timer => exact status.trans (h (timer ht))
  | halts _ _ _ _ _ timer | vanishes _ _ _ _ _ _ timer => simp [timer] at ht
  | stops _ _ _ _ _ _ status _ timer => exact status.trans (h (timer ▸ ht))
  | starts _ _ _ _ status => exact status
  | closes _ _ _ status _ timer | begins _ _ _ status _ timer
  | handles _ _ _ _ _ _ status _ timer | leaves _ _ _ _ _ status _ timer =>
    exact status.trans (h (timer ▸ ht))

theorem Ended.effect (h : a.Ended) (he : Effect a m a' c? new) : a'.Ended := by
  refine ⟨?_, he.startAttempted h.attempted⟩
  have kept (timer : a'.due.isSome = true → a.due.isSome = true) : a'.due = none := by
    rw [← Option.not_isSome_iff_eq_none]
    exact fun hd => by simpa [h.due] using timer hd
  cases he with
  | rests _ _ _ _ timer | sends _ _ _ _ _ _ _ timer => exact kept timer
  | halts _ _ _ _ _ timer | vanishes _ _ _ _ _ _ timer => exact timer
  | starts _ before => exact absurd (before.symm.trans h.attempted) Bool.false_ne_true
  | stops _ _ _ _ _ _ _ _ timer | closes _ _ _ _ _ timer | begins _ _ _ _ _ timer
  | handles _ _ _ _ _ _ _ _ timer | leaves _ _ _ _ _ _ _ timer => exact timer.trans h.due

theorem Ended.play_ended (h : a.Ended) (moves : List (Move J)) : (a.play moves).2.Ended := by
  induction moves using List.reverseRecOn with
  | nil => exact h
  | append_singleton moves m ih =>
    rw [play_concat]
    exact ih.effect (effect_move _ m)

theorem timer_send (a : Agent J) (w : Message J) : (a.send w).timer = a.timer := by
  rw [send]
  split <;> rfl

theorem timer_of_take {t : Turn J} (h : a.take = some (t, a')) : a'.timer = a.timer := by
  rw [take] at h
  split at h <;> cases h <;> rfl

/-- A timer that is not at work and was asked to end stays asleep. -/
theorem Ended.asleep_move (h : a.Ended) (hs : a.timer = .asleep) (m : Move J) :
    (a.move m).2.timer = .asleep := by
  cases m with
  | tryStart approved now =>
    have same : a.tryStart approved now = a := if_pos h.attempted
    simpa only [move, same] using hs
  | post j =>
    by_cases hl : a.isOpen = true
    · simpa [move, post, hl, timer_send] using hs
    · simpa [move, post, hl] using hs
  | halt =>
    simp only [move, halt]
    split <;> exact hs
  | sendStop =>
    simp only [move, sendHalt]
    split
    · exact (timer_send ..).trans hs
    · exact hs
  | wake => simp [move, wake, h.due, hs]
  | strike => simp [move, strike, hs]
  | settle => simp [move, settle, hs]
  | doze => simp [move, doze, hs]
  | release =>
    simp only [move, abandon, halt]
    split
    · exact hs
    · split <;> exact hs
  | take =>
    rw [move]
    cases ht : a.take with
    | none => exact hs
    | some turn => exact (timer_of_take ht).trans hs
  | finish =>
    simp only [move, finish]
    split
    · exact hs
    · exact (timer_send ..).trans hs
    · exact hs
    · exact hs

/-- It takes no tick and sends no heartbeat. -/
theorem Ended.play (h : a.Ended) (hs : a.timer = .asleep) (moves : List (Move J)) :
    ticks (a.play moves).1 = 0 ∧ beatsAmong (a.accepted moves) = 0 := by
  induction moves generalizing a with
  | nil => exact ⟨rfl, rfl⟩
  | cons m moves ih =>
    have he := effect_move a m
    obtain ⟨hticks, haccepted⟩ := ih (h.effect he) (h.asleep_move hs m)
    have untold : (a.move m).1.isTick = false := by
      by_cases hm : m = .strike
      · subst hm
        simp [move, hs, Answer.isTick]
      · exact isTick_move a hm
    have unsent : beatsAmong (a.accepts m) = 0 := by
      refine List.countP_eq_zero.mpr fun w hw hbeat => ?_
      cases w with
      | heartbeat => exact absurd (he.sending hw) (by simp [hs])
      | job | stop | close => cases hbeat
    refine ⟨?_, by rw [accepted, beatsAmong_append, unsent, haccepted]⟩
    rw [ticks, Agent.play, List.countP_cons_of_neg (by simp [untold])]
    exact hticks

end Ended

theorem timed_play {name : String} {period : Option Nat} {a : Agent J}
    (ha : new name period = .ok a) (moves : List (Move J)) : (a.play moves).2.Timed := by
  have hnew := new_eq_ok ha
  induction moves using List.reverseRecOn with
  | nil =>
    subst hnew
    exact fun h => by cases h
  | append_singleton moves m ih =>
    rw [play_concat]
    exact ih.effect (effect_move _ m)

/-- A started agent that is not running has no timer that could begin to work. -/
theorem Kept.ended {a : Agent J} {cs : List (Call J)} {acc : List (Message J)}
    (hk : a.Kept cs acc) (ht : a.Timed) (hs : a.status = .stopped) : a.Ended where
  due := by
    rw [← Option.not_isSome_iff_eq_none]
    exact fun hd => by simp [ht hd] at hs
  attempted := by
    cases hk.stage with
    | absent _ status | gone _ status => simp [status] at hs
    | fresh _ _ attempted | underWay _ _ attempted | left _ _ attempted => exact attempted

/-! ### Heartbeats of a history -/

/-- The heartbeats of an agent in the course of moves. -/
structure Heartbeats (a : Agent J) (moves : List (Move J)) : Prop where
  /-- There is at most one: the timer has it in hand, or it waits, or it is being handled. -/
  one : (a.play moves).2.timer.beats + (a.play moves).2.heartbeats ≤ 1
  /-- Until the loop has left, the gate is shut exactly if there is one. -/
  gate : (a.play moves).2.loop ≠ .exited →
    ((a.play moves).2.busy = true ↔
      (a.play moves).2.timer.beats + (a.play moves).2.heartbeats = 1)
  /-- Until then, every heartbeat that was accepted was handed to the handler or waits, and none
  was refused. -/
  handed : (a.play moves).2.loop ≠ .exited →
    beatsAmong (a.accepted moves)
      = (counts (a.play moves).1).length + beatsAmong (a.play moves).2.mailbox ∧
    refusals (a.play moves).1 = 0
  /-- When the loop has left, none waits and none is handled any more, and besides those that were
  handed to the handler there is one more exactly if the gate is shut. -/
  lost : (a.play moves).2.loop = .exited →
    (a.play moves).2.heartbeats = 0 ∧
    beatsAmong (a.accepted moves) + refusals (a.play moves).1 + (a.play moves).2.timer.beats
      = (counts (a.play moves).1).length + (a.play moves).2.busy.toNat
  /-- Every tick is a heartbeat that was accepted or refused, or is counted as skipped, or the timer
  has it in hand. -/
  ticks : ticks (a.play moves).1 =
    beatsAmong (a.accepted moves) + refusals (a.play moves).1 + (a.play moves).2.skipped
      + (a.play moves).2.timer.ticks
  /-- The handler counts without a gap. -/
  counts : counts (a.play moves).1 = List.range (counts (a.play moves).1).length
  /-- Once a started agent is requested to stop, there is no tick any more as soon as the timer is
  not at work. -/
  stopped : ∀ before during after, moves = before ++ .halt :: during ++ after →
    (a.play before).2.status ≠ .waitingForStart →
    (a.play (before ++ .halt :: during)).2.timer = .asleep →
      Agent.ticks ((a.play (before ++ .halt :: during)).2.play after).1 = 0 ∧
        beatsAmong ((a.play (before ++ .halt :: during)).2.accepted after) = 0

/-- A started agent is stopped as soon as that is requested. -/
theorem status_halt {a : Agent J} (h : a.status ≠ .waitingForStart) : a.halt.status = .stopped := by
  rw [halt]
  split
  · rfl
  · next hr => cases hs : a.status <;> simp [hs] at h hr ⊢

/-- **Heartbeats do not overlap.** There is one at a time, as the gate says until the loop has left,
and no tick is lost uncounted. -/
theorem heartbeatsApart {name : String} {period : Option Nat} {a : Agent J}
    (ha : new name period = .ok a) {moves : List (Move J)} (ho : Owned moves) :
    a.Heartbeats moves := by
  have balanced := balanced_play ha ho
  have staying (hl : (a.play moves).2.loop ≠ .exited) : (a.play moves).2.gate.left = false := by
    simpa [Agent.gate, isFinished] using (isOpen_iff _).mpr hl
  constructor
  case one => exact balanced.one
  case gate => exact fun hl => balanced.busy_iff (staying hl)
  case handed => exact fun hl => ⟨balanced.posted_eq (staying hl), balanced.accepted (staying hl)⟩
  case lost =>
    intro hl
    obtain ⟨waiting, beating⟩ := balanced.drained ((isFinished_iff _).mpr hl)
    have account := balanced.account
    rw [beating, Bool.toNat_false] at account
    refine ⟨?_, account.symm⟩
    exact congrArg₂ (· + Bool.toNat ·) waiting beating
  case ticks => exact balanced.ticks
  case counts =>
    conv_rhs => rw [balanced.counts, List.length_range]
    exact balanced.counts
  case stopped =>
    rintro before during after rfl hs hasleep
    rw [play_append] at hasleep ⊢
    have hbefore : Owned (before ++ [.halt]) := by
      refine ho.sublist ?_
      simp
    have hstopped : (a.play (before ++ [.halt])).2.status = .stopped := by
      rw [play_concat]
      exact status_halt hs
    have ended := (kept_play ha hbefore).ended (timed_play ha _) hstopped
    rw [play_concat] at ended
    exact (ended.play_ended during).play hasleep after

/-- A tick is skipped while the handler is at work on a heartbeat. The stop is requested between
the tick that shuts the gate for the second heartbeat and the sending of that heartbeat, which
comes to stand behind the stop message. Its timer is not at work again. -/
def ticking : List (Move Nat) :=
  [.tryStart true 0, .take, .finish, .wake, .strike, .settle, .doze, .take, .wake, .strike,
    .settle, .doze, .finish, .wake, .strike, .halt, .sendStop, .settle, .doze, .wake, .strike,
    .take, .finish, .take, .finish, .take]

theorem heartbeatsApart_of_ticking :
    new "clerk" (some 20000) = .ok clerk ∧ Owned ticking ∧ clerk.Heartbeats ticking := by
  have owned : Owned ticking := by
    unfold Owned
    decide
  exact ⟨new_clerk, owned, heartbeatsApart new_clerk owned⟩

/-- Three ticks, of which one was skipped. -/
example : ticks (clerk.play ticking).1 = 3 ∧ counts (clerk.play ticking).1 = [0, 1] ∧
    (clerk.play ticking).2.skipped = 1 := by
  decide

/-- A tick whose heartbeat is not sent yet. -/
def halfTick : List (Move Nat) := [.tryStart true 0, .wake, .strike]

/-- While the timer has a heartbeat in hand the gate is shut and none waits, and its tick has been
counted neither way. The heartbeat may be sent when the request to stop was answered already. -/
theorem not_apart_halfTick :
    (¬ ∀ (name : String) (period : Option Nat) (a : Agent Nat) (moves : List (Move Nat)),
      new name period = .ok a → Owned moves →
        ((a.play moves).2.busy = true ↔ (a.play moves).2.heartbeats = 1)) ∧
    (¬ ∀ (name : String) (period : Option Nat) (a : Agent Nat) (moves : List (Move Nat)),
      new name period = .ok a → Owned moves →
        ticks (a.play moves).1 = beatsAmong (a.accepted moves) + (a.play moves).2.skipped) ∧
    ¬ ∀ (name : String) (period : Option Nat) (a : Agent Nat) (before after : List (Move Nat)),
      new name period = .ok a → Owned (before ++ .sendStop :: after) →
        ((a.play before).2.move .sendStop).1 = .stopping true →
          beatsAmong ((a.play (before ++ [.sendStop])).2.accepted after) = 0 := by
  have owned : Owned halfTick := by
    unfold Owned
    decide
  refine ⟨fun h => ?_, fun h => ?_, fun h => ?_⟩
  · exact absurd (h "clerk" (some 20000) clerk halfTick new_clerk owned) (by decide)
  · exact absurd (h "clerk" (some 20000) clerk halfTick new_clerk owned) (by decide)
  · have owned : Owned ((halfTick ++ [.halt]) ++ .sendStop :: [.settle]) := by
      unfold Owned
      decide
    exact absurd (h "clerk" (some 20000) clerk (halfTick ++ [.halt]) [.settle] new_clerk owned
      (by decide)) (by decide)

end Agent

end PartyGraph
