import PartyGraph.Proofs.Service.Steady

/-!
# Names are distinct at every point

Names are looked at three times: sections are resolved without taking a name twice, an addition is
compared with the graph when it is asked for, and again when it comes to be handled. Only the last
matters for the graph, since nobody but the agent takes names or gives them back. From there on
there is room for the names of the batch (`Graph.Room`), and each party that is put into the graph
uses up its own.

The journal has an entry for each change of the graph, so the graph at every point is what a
suffix of the journal makes of the graph at the beginning. The statement is about all of these,
those between two parties of a batch and those in the middle of a destruction included.

## Main definitions

* `Service.Distinct`: the names of all graphs that a journal has passed through are distinct.
* `Service.NamesDistinct`: the same of a history.

## Main results

* `Service.Named.publish`, `Service.Named.removeParty`: names stay distinct, step by step.
* `Service.steady_distinct`: they are distinct throughout a history.
-/

namespace PartyGraph

namespace Service

variable {s s' : Service} {g₀ : Graph}

/-- Whether the names of each graph that the entries of a journal pass through are distinct. -/
def Distinct (g₀ : Graph) (journal : List Entry) : Prop :=
  ∀ j, j <:+ journal → (g₀.after j).keys.Nodup

theorem Distinct.cons {e : Entry} {journal : List Entry} (h : Distinct g₀ journal)
    (he : (e.act (g₀.after journal)).keys.Nodup) : Distinct g₀ (e :: journal) := by
  intro j hj
  rcases List.suffix_cons_iff.mp hj with rfl | hj
  · exact he
  · exact h j hj

theorem Distinct.same {e : Entry} {journal : List Entry} (h : Distinct g₀ journal)
    (he : e.act (g₀.after journal) = g₀.after journal) : Distinct g₀ (e :: journal) :=
  h.cons (he.symm ▸ h journal (List.suffix_refl _))

/-- Whether the journal of a service tells its graph, and names were distinct all along. -/
structure Named (g₀ : Graph) (s : Service) : Prop where
  graph : s.graph = g₀.after s.journal
  distinct : Distinct g₀ s.journal

namespace Named

theorem tell (h : Named g₀ s) (channel : Channel) (signal : Signal) :
    Named g₀ (s.tell channel signal) :=
  ⟨h.graph, h.distinct.same rfl⟩

theorem change (h : Named g₀ s) {c : GraphChange} (hc : (s.graph.apply c).keys.Nodup) :
    Named g₀ (s.change c) :=
  ⟨congrArg (·.apply c) h.graph, h.distinct.cons (by rwa [h.graph] at hc)⟩

theorem tellOfRemotes (h : Named g₀ s) (owner : PartyRef) (e : PartyId → PartyEvent)
    (rs : List PartyId) : Named g₀ (rs.foldl (fun s r => s.tellOfRemote owner (e r)) s) := by
  induction rs generalizing s with
  | nil => exact h
  | cons r rs ih => exact ih ((h.tell _ _).tell _ _)

/-- Every party that is put into the graph has room. -/
theorem publish {b : Batch} (h : Named g₀ s) (hb : b.Fits s.graph) (hs : s.graph.Sound)
    (hroom : s.graph.Room (b.family s.graph)) : Named g₀ (s.publish b) := by
  refine (publish_induction (P := fun _ t => Named g₀ t) hb hs hroom (fun id rest t hid hp ht => ?_)
    (fun id rest t hid hp ht => ?_) h).2
  · have named := ht.change (hp.remote hb hid).room.keys_nodup
    exact (named.tell _ _).tell _ _
  · have named := ht.change (hp.tenant hb hid).room.keys_nodup
    exact (named.tell _ _).tellOfRemotes _ _ _

/-- Every change in which a party leaves the graph gives names back or leaves them as they are. -/
theorem removeParty {id : PartyId} {p : OwnedParty} (h : Named g₀ s) (hs : s.graph.Sound)
    (hroom : s.graph.Room []) (hp : s.graph.party? id = some p) :
    Named g₀ (s.removeParty id p) := by
  have room := hroom.without hs hp
  refine (removeParty_induction
    (P := fun t => Named g₀ t ∧ Graph.Alike (s.graph.without id p) t.graph) s id p
    (fun hno => ?_) (fun hyes => ?_) (fun t channel e ht => ⟨ht.1.tell _ _, ht.2⟩)
    fun t i _ ht => ?_).1
  · rw [Graph.without_remote hno] at room ⊢
    exact ⟨h.change room.keys_nodup, .refl _⟩
  · have removed := hroom.remove_tenant (Graph.isTenant_of_party? hp hyes)
    rw [Graph.without_tenant hyes] at room ⊢
    exact ⟨(h.change removed.keys_nodup).change room.keys_nodup, .refl _⟩
  · have alike := ht.2.trans (Graph.alike_complete t.graph i)
    exact ⟨ht.1.change (room.alike alike).keys_nodup, alike⟩

end Named

/-- Requests change the graph, but not its names. -/
theorem Asked.distinct {stage : Stage} {line : List IdentityJob} (h : s.Asked s')
    (hs : Coherent g₀ stage line s) (hd : Distinct g₀ s.journal) : Distinct g₀ s'.journal := by
  obtain ⟨new, hnew, -, hall⟩ := h.journal
  rw [hnew]
  clear hnew
  induction new with
  | nil => exact hd
  | cons e new ih =>
    refine (ih fun e he => hall e (List.mem_cons_of_mem _ he)).cons ?_
    have extends' : Graph.Extends s.graph (s.graph.after (e :: new)) := Graph.extends_after hall
    have hafter : g₀.after (e :: new ++ s.journal) = s.graph.after (e :: new) := by
      rw [Graph.after_append, ← hs.graph]
    show (g₀.after (e :: new ++ s.journal)).keys.Nodup
    rw [hafter]
    exact (hs.room.extend extends' hs.sound (by simp)).keys_nodup

theorem Aside.distinct (h : s.Aside s') (hd : Distinct g₀ s.journal) : Distinct g₀ s'.journal := by
  obtain ⟨new, hnew, hall⟩ := h.journal
  rw [hnew]
  clear hnew
  induction new with
  | nil => exact hd
  | cons e new ih =>
    rw [List.forall_mem_cons] at hall
    exact (ih hall.2).same (hall.1.act _)

theorem steady_distinct (g₀ : Graph) : Steady g₀ fun _ _ s => Distinct g₀ s.journal where
  asked hs hd h := h.distinct hs hd
  aside hd h := h.distinct hd
  taken hd := hd.same rfl
  dropped {j} _ _ hd := by
    cases j with
    | add b => exact hd.same rfl
    | destroy id => exact hd
  left hd := hd
  removed hs hd hp _ := (Named.removeParty ⟨hs.graph, hd⟩ hs.sound hs.room hp).distinct
  failed _ hd := hd.same rfl
  published hs hd hroom := by
    obtain ⟨n, m, ready⟩ := hs.ready
    exact (Named.publish ⟨hs.graph, hd⟩ ready.fits hs.sound hroom).distinct
  succeeded _ hd := hd.same rfl

/-- What is said of the names in a history: the journal tells the graph at every point, and at every
point the names of the root, of its remote parties, of the tenant domains and of theirs are
distinct. -/
structure NamesDistinct (s₀ : Service) (moves : List Move) : Prop where
  graph : (s₀.play moves).graph = s₀.graph.after (s₀.play moves).journal
  distinct : ∀ j, j <:+ (s₀.play moves).journal → (s₀.graph.after j).keys.Nodup

/-- **Names are distinct.** Whatever is asked of a service and whatever its drivers do, no two
parties of its graph have the same name at any point. -/
theorem namesDistinct {c : IdentityConfiguration} {place : DataPlace} {s₀ : Service}
    (h : new c place = .ok s₀) (moves : List Move) : s₀.NamesDistinct moves := by
  have coherent := coherent_of_new h
  have start : Distinct s₀.graph s₀.journal := by
    obtain ⟨r, -, blank⟩ := blank_of_new h
    rw [blank.journal]
    intro j hj
    rw [List.suffix_nil.mp hj]
    exact coherent.nodup
  have held := (steady_distinct s₀.graph).play_new h start moves
  exact ⟨held.1.graph, held.2⟩

/-- A service is started, and the same remote party is added twice. -/
theorem namesDistinct_of_homonyms :
    ∃ s₀, new .default ⟨"/home", none⟩ = .ok s₀ ∧
      s₀.NamesDistinct [.request .start, .deliver,
        .request (.add .root .any { PartySection.blank with partyName := some "R" }),
        .request (.add .root .any { PartySection.blank with partyName := some "r" }),
        .deliver, .deliver] := by
  obtain ⟨s₀, h⟩ := exists_new_default
  exact ⟨s₀, h, namesDistinct h _⟩

end Service

end PartyGraph
