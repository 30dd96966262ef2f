import PartyGraph.Proofs.Graph.Declarations
import PartyGraph.Proofs.Service.Permanence
import PartyGraph.Proofs.Service.Replies

/-!
# Refused requests for a destruction

A request for the destruction of a party is refused for one of two reasons, and they differ in what
is left behind. That the party is not dynamic is found out first, and nothing is changed then. That
there is no agent any more is found out when the job is to be posted, and by then the party has been
marked, with the remote parties in its list: the mark decides who is the first to ask, so it is set
before the job is posted, and states never go back.

So a request that comes too late leaves a party that counts as being destroyed for good and is never
destroyed. Whoever asks again is told that the destruction was requested before. Nothing else
changes: no list, no job, no signal and no other party.

All of this holds of every service that is orderly, between two moves or while drivers are called.

## Main definitions

* `Service.Traceless`: a request leaves no trace.
* `Service.RefusedDestruction`: what is left by a refused request.

## Main results

* `Service.refusal_cases`: the two reasons.
* `Service.destroy_of_isDestroyed`: what is told who asks again.
* `Service.Over.lasting`: what becomes of a party that is marked too late.
* `Service.refusedDestruction`: what is left in either case.
-/

namespace PartyGraph

theorem OwnedParty.Fixed.after {α : Type} {d : OwnedParty → α} (h : OwnedParty.Fixed d) {g : Graph}
    {id : PartyId} {p : OwnedParty} (hp : g.party? id = some p) (new : List Entry) :
    ∃ q, (g.after new).party? id = some q ∧ d q = d p := by
  induction new with
  | nil => exact ⟨p, hp, rfl⟩
  | cons e new ih =>
    obtain ⟨q, hq, hd⟩ := ih
    cases e with
    | changed c =>
      obtain ⟨q', hq', hd'⟩ := h.apply hq c
      exact ⟨q', hq', hd'.trans hd⟩
    | _ => exact ⟨q, hq, hd⟩

namespace Service

variable {s s' : Service} {id : PartyId} {p : OwnedParty} {e : IdentityError}

/-- Whether a party is dynamic does not change. -/
theorem Later.dynamic (h : s.Later s') (hp : s.graph.party? id = some p) :
    ∃ q, s'.graph.party? id = some q ∧ q.dynamic = p.dynamic := by
  obtain ⟨new, -, hg⟩ := h
  rw [hg]
  exact OwnedParty.fixed_dynamic.after hp new

/-! ### Requests -/

/-- A request is refused because the party is not dynamic, or because the agent takes no more
messages. In the latter case the party is marked. -/
theorem refusal_cases (hp : s.graph.party? id = some p) (he : (s.destroy id).1 = .error e) :
    p.dynamic = false ∧ e = .notDynamic p.name.text ∧
        (s.destroy id).2 = s.record (.askedToDestroy id (.error e)) ∨
      p.dynamic = true ∧ e = .agentStopped ∧ s.Over ∧ p.destroyState = .alive ∧
        (s.destroy id).2 = (s.change (.doom id)).record (.askedToDestroy id (.error e)) := by
  rw [destroy, doom, hp] at he ⊢
  dsimp only at he ⊢
  cases hd : p.dynamic with
  | false =>
    simp only [hd, Bool.not_false, if_true] at he ⊢
    cases he
    exact .inl ⟨trivial, rfl, rfl⟩
  | true =>
    cases ha : p.isDestroyed with
    | true => simp [hd, ha] at he
    | false =>
      have alive : p.destroyState = .alive := by simpa [OwnedParty.isDestroyed] using ha
      simp only [hd, ha, Bool.not_true, Bool.false_eq_true, if_false] at he ⊢
      have hpost := (s.change (.doom id)).posted_postDestroy id
      rw [he] at hpost ⊢
      generalize (postDestroy (s.change (.doom id)) id).2 = t at hpost ⊢
      cases hpost with
      | refused hover => exact .inr ⟨trivial, rfl, hover, alive, rfl⟩

/-- Who asks again is told that it was requested before. -/
theorem destroy_of_isDestroyed (hp : s.graph.party? id = some p) (hd : p.dynamic = true)
    (h : s.graph.isDestroyed id = true) : (s.destroy id).1 = .ok false := by
  have ha : p.isDestroyed = true := by simpa [Graph.isDestroyed, hp] using h
  simp [destroy, doom, hp, hd, ha]

/-- Nobody is told anything by a request. -/
theorem Asked.signals (h : s.Asked s') (channel : Channel) :
    s'.signals channel = s.signals channel := by
  obtain ⟨new, hj, -, hall⟩ := h.journal
  rw [Service.signals, hj, filterMap_journal_append fun e he => ?_, Service.signals]
  cases e with
  | told => exact absurd (hall _ he) id
  | _ => rfl

/-- Once nothing is handled any more, a party that is marked stays so and is never destroyed. -/
theorem Over.lasting (h : s.Over) (hs : s.Orderly) (hp : s.graph.party? id = some p)
    (hd : p.dynamic = true) (hmarked : s.graph.isDestroyed id = true) (moves : List Move) :
    (∀ i, s.graph.isDestroyed i = true → (s.play moves).graph.isDestroyed i = true) ∧
      (∀ i, (s.play moves).graph.isGone i = s.graph.isGone i) ∧
      ((s.play moves).destroy id).1 = .ok false := by
  have later := later_play hs moves
  obtain ⟨q, hq, hdynamic⟩ := later.dynamic hp
  exact ⟨fun _ => later.forward.isDestroyed, h.isGone_play hs moves,
    destroy_of_isDestroyed hq (hdynamic.trans hd) (later.forward.isDestroyed hmarked)⟩

/-! ### Traces -/

/-- A request for the destruction of a party leaves no trace: it and the remote parties of a tenant
domain are as far from their destruction as they were, and nobody is ever told that the destruction
was requested before. -/
structure Traceless (s : Service) (id : PartyId) : Prop where
  states : ∀ i, i = id ∨ i ∈ s.graph.remotesOf (.owned id) →
    (s.destroy id).2.graph.state? i = s.graph.state? i
  untold : ∀ moves, (((s.destroy id).2.play moves).destroy id).1 ≠ .ok false

/-- Whoever is not dynamic is refused again and again. -/
theorem traceless_of_not_dynamic (hs : s.Orderly) (hp : s.graph.party? id = some p)
    (hd : p.dynamic = false) : s.Traceless id where
  states i _ := by rw [(refuses_of_not_dynamic hp hd).graph]
  untold moves := by
    have later := later_play ((asked_destroy id).orderly hs) moves
    obtain ⟨q, hq, hdynamic⟩ := ((asked_destroy id).later.trans later).dynamic hp
    rw [(refuses_of_not_dynamic hq (hdynamic.trans hd)).answer]
    simp

/-- Whoever has been marked is not as before. -/
theorem not_traceless_of_marked (hp : s.graph.party? id = some p) (ha : p.destroyState = .alive)
    (hmarked : (s.destroy id).2.graph.isDestroyed id = true) : ¬ s.Traceless id := by
  intro h
  rw [Graph.isDestroyed_congr (h.states id (.inl rfl))] at hmarked
  simp [Graph.isDestroyed, OwnedParty.isDestroyed, hp, ha] at hmarked

/-! ### Refused requests -/

/-- What is left by a request for the destruction of the party `p` that was refused with `e`. -/
structure RefusedDestruction (s : Service) (id : PartyId) (p : OwnedParty) (e : IdentityError) :
    Prop where
  /-- The reason is that the party is not dynamic, or that nothing is handled any more. -/
  reason : p.dynamic = false ∧ e = .notDynamic p.name.text ∨
    p.dynamic = true ∧ e = .agentStopped ∧ s.Over
  /-- It leaves no trace exactly in the first case. -/
  traceless : s.Traceless id ↔ p.dynamic = false
  /-- In either case who is in the graph is there as before, nothing is posted, nobody is told
  anything and nobody is destroyed. -/
  lists : Graph.Alike s.graph (s.destroy id).2.graph
  agent : (s.destroy id).2.agent = s.agent
  signals : ∀ channel, (s.destroy id).2.signals channel = s.signals channel
  gone : ∀ i, (s.destroy id).2.graph.isGone i = s.graph.isGone i
  /-- In the second case the party and the remote parties in its list are marked, and nobody
  else. -/
  marked : p.dynamic = true → ∀ i, (s.destroy id).2.graph.isDestroyed i = true ↔
    s.graph.isDestroyed i = true ∨
      i < s.graph.parties.length ∧ (i = id ∨ i ∈ s.graph.remotesOf (.owned id))
  /-- The marks stay, nobody is destroyed any more, and who asks again is told that the destruction
  was requested before. -/
  lasting : p.dynamic = true → ∀ moves,
    (∀ i, (s.destroy id).2.graph.isDestroyed i = true →
      ((s.destroy id).2.play moves).graph.isDestroyed i = true) ∧
    (∀ i, ((s.destroy id).2.play moves).graph.isGone i = s.graph.isGone i) ∧
    (((s.destroy id).2.play moves).destroy id).1 = .ok false

/-- **A refused request leaves no trace unless it came too late.** A request for the destruction of
a party is refused without any effect if the party is not dynamic. If the agent takes no more
messages, the party and the remote parties of a tenant domain are marked for good, and that is
all. -/
theorem refusedDestruction (hs : s.Orderly) (hp : s.graph.party? id = some p)
    (he : (s.destroy id).1 = .error e) : s.RefusedDestruction id p e := by
  have asked : s.Asked (s.destroy id).2 := asked_destroy id
  rcases refusal_cases hp he with ⟨hd, hreason, hafter⟩ | ⟨hd, hreason, hover, halive, hafter⟩
  · have static : p.dynamic ≠ true := by simp [hd]
    constructor
    case reason => exact .inl ⟨hd, hreason⟩
    case traceless => exact ⟨fun _ => hd, traceless_of_not_dynamic hs hp⟩
    case lists => exact hafter ▸ .refl _
    case agent => rw [hafter]; rfl
    case signals => exact asked.signals
    case gone => exact asked.isGone
    case marked => exact fun h => absurd h static
    case lasting => exact fun h => absurd h static
  · have hmarked : (s.destroy id).2.graph.isDestroyed id = true := by
      rw [hafter]
      exact Graph.isDestroyed_doom hp
    obtain ⟨q, hq, hdynamic⟩ := asked.later.dynamic hp
    constructor
    case reason => exact .inr ⟨hd, hreason, hover⟩
    case traceless =>
      refine ⟨fun h => absurd h (not_traceless_of_marked hp halive hmarked), fun h => ?_⟩
      exact absurd (hd.symm.trans h) (by simp)
    case lists => rw [hafter]; exact Graph.alike_doom s.graph id
    case agent => rw [hafter]; rfl
    case signals => exact asked.signals
    case gone => exact asked.isGone
    case marked =>
      rw [hafter]
      exact fun _ i => Graph.isDestroyed_doom_iff
    case lasting =>
      intro _ moves
      obtain ⟨stays, gone, told⟩ := (hover.asked asked).lasting (asked.orderly hs) hq
        (hdynamic.trans hd) hmarked moves
      exact ⟨stays, fun i => (gone i).trans (asked.isGone i), told⟩

/-- A tenant domain is added with a remote party, and then the service is stopped. -/
def tooLate : List Move :=
  [.request .start, .deliver,
    .request (.add .root .any { PartySection.blank with
      domainName := some "T", partyName := some "T",
      parties := [{ PartySection.blank with partyName := some "R" }] }),
    .deliver, .request .stop, .deliver, .deliver]

/-- Afterwards the destruction of the domain is refused. -/
theorem exists_tooLate : ∃ s₀ p, new .default ⟨"/home", none⟩ = .ok s₀ ∧
    (s₀.play tooLate).graph.party? 0 = some p ∧ p.dynamic = true ∧
    ((s₀.play tooLate).destroy 0).1 = .error .agentStopped := by
  obtain ⟨s₀, h⟩ := exists_new_default
  have hrun : (new .default ⟨"/home", none⟩).toOption.map (fun s =>
      let t := s.play tooLate
      ((t.graph.party? 0).map (·.dynamic), (t.destroy 0).1.isOk)) = some (some true, false) := by
    decide +kernel
  rw [h] at hrun
  obtain ⟨hparty, hok⟩ := Prod.mk.inj (Option.some.inj hrun)
  obtain ⟨p, hp, hd⟩ := Option.map_eq_some_iff.mp hparty
  cases he : ((s₀.play tooLate).destroy 0).1 with
  | ok b =>
    rw [he] at hok
    cases hok
  | error e =>
    rcases refusal_cases hp he with ⟨hstatic, -⟩ | ⟨-, rfl, -⟩
    · exact absurd (hstatic.symm.trans hd) (by simp)
    · exact ⟨s₀, p, h, hp, hd, he⟩

theorem refusedDestruction_of_tooLate : ∃ s₀ p, new .default ⟨"/home", none⟩ = .ok s₀ ∧
    p.dynamic = true ∧ (s₀.play tooLate).RefusedDestruction 0 p .agentStopped := by
  obtain ⟨s₀, p, h, hp, hd, he⟩ := exists_tooLate
  exact ⟨s₀, p, h, hd, refusedDestruction (orderly_play (coherent_of_new h).orderly tooLate) hp he⟩

/-- The refused request has left its mark. -/
theorem not_traceless_tooLate : ∃ s₀, new .default ⟨"/home", none⟩ = .ok s₀ ∧
    ((s₀.play tooLate).destroy 0).1 = .error .agentStopped ∧ ¬ (s₀.play tooLate).Traceless 0 := by
  obtain ⟨s₀, p, h, hp, hd, he⟩ := exists_tooLate
  refine ⟨s₀, h, he, ?_⟩
  rcases refusal_cases hp he with ⟨hstatic, -⟩ | ⟨-, -, -, halive, hafter⟩
  · exact absurd (hstatic.symm.trans hd) (by simp)
  · exact not_traceless_of_marked hp halive (by rw [hafter]; exact Graph.isDestroyed_doom hp)

/-- So have the remote party, and the answer to whoever asks again. -/
example : (new .default ⟨"/home", none⟩).toOption.map (fun s =>
    let t := s.play tooLate
    let t' := (t.destroy 0).2
    ([0, 1].map t.graph.state?, [0, 1].map t'.graph.state?, (t'.destroy 0).1.toOption))
      = some ([some .alive, some .alive], [some .destroying, some .destroying], some false) := by
  decide +kernel

end Service

end PartyGraph
