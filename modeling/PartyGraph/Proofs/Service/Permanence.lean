import PartyGraph.Proofs.Graph.Permanence
import PartyGraph.Proofs.Service.Destruction

/-!
# Static parties are permanent

Nothing that a service does concerns the parties of its configuration: they are in the graph
already, a request for the destruction of one of them is refused, and so no job is ever about one.
A tenant domain that is destroyed takes everyone in its list with it, dynamic or not. That list has
dynamic parties only, since the domain is dynamic itself (`Graph.Permanent`).

This holds at every point of a history, between the steps of a destruction and in the middle of a
pass as well. Whoever asks for the destruction of a static party at such a point is refused.

## Main definitions

* `IdentityJob.Later`: jobs about later parties.
* `Service.Permanence`: what is kept.
* `Service.Refuses`: a request that is refused and of which nothing comes.
* `Service.StaticsStay`: what is said of static parties.

## Main results

* `Service.Permanence.asked`, `Service.Permanence.published`, `Service.Permanence.removed`: what can
  happen.
* `Service.permanence_play`: any history.
* `Service.refuses_of_permanent`: requests.
-/

namespace PartyGraph

/-- Whether a job is about parties with numbers from `n` on. -/
def IdentityJob.Later (n : Nat) : IdentityJob → Prop
  | .add b => ∀ id ∈ b.parties, n ≤ id
  | .destroy id => n ≤ id

namespace Service

variable {s s' : Service} {g₀ : Graph} {id : PartyId} {p : OwnedParty} {b : Batch}
  {jobs line : List IdentityJob}

/-! ### What is kept -/

/-- Nothing is lost of the beginning at any point, and the jobs that are still to come or under way
are about later parties. -/
structure Permanence (g₀ : Graph) (jobs : List IdentityJob) (s : Service) : Prop where
  permanent : s.Always (Graph.Permanent g₀) g₀
  jobs : ∀ j ∈ jobs, j.Later g₀.parties.length

/-- A change that concerns later parties alone. -/
theorem Always.permanent (h : s.Always (Graph.Permanent g₀) g₀) (hs : g₀.Sound) {c : GraphChange}
    (hc : c.Later g₀.parties.length) : (s.change c).Always (Graph.Permanent g₀) g₀ :=
  h.change (h.now.apply hs hc)

namespace Permanence

theorem tail {j : IdentityJob} (h : s.Permanence g₀ (j :: jobs)) : s.Permanence g₀ jobs :=
  ⟨h.permanent, fun i hi => h.jobs i (List.mem_cons_of_mem j hi)⟩

theorem record (h : s.Permanence g₀ jobs) {e : Entry} (he : e.act s.graph = s.graph) :
    (s.record e).Permanence g₀ jobs :=
  ⟨h.permanent.record he, h.jobs⟩

/-- Requests. A party whose destruction is granted is dynamic, and one that is made is new. -/
theorem asked {stage : Stage} (h : s.Permanence g₀ (stage.pending ++ s.jobs)) (hs : g₀.Sound)
    (ha : s.Asked s') : s'.Permanence g₀ (stage.pending ++ s'.jobs) := by
  have now := h.permanent.now
  have keeps (hg : s'.graph = s.graph) (hjobs : s'.jobs = s.jobs) :
      s'.Permanence g₀ (stage.pending ++ s'.jobs) :=
    ⟨h.permanent.asked ha (hg ▸ now), hjobs ▸ h.jobs⟩
  have changes (c : GraphChange) (hg : s'.graph = s.graph.apply c)
      (hc : c.Later g₀.parties.length) : s'.Always (Graph.Permanent g₀) g₀ :=
    h.permanent.asked ha (hg ▸ now.apply hs hc)
  have made (owner : PartyRef) (c : PartyConfiguration) (parties : Parties) :
      (GraphChange.make (s.draft owner c parties).parties).Later g₀.parties.length :=
    Draft.late_make now.length
  have more (j : IdentityJob) (hj : j.Later g₀.parties.length) (hjobs : s'.jobs = s.jobs ++ [j]) :
      ∀ i ∈ stage.pending ++ s'.jobs, i.Later g₀.parties.length := by
    rw [hjobs, ← List.append_assoc]
    exact List.forall_mem_append.mpr ⟨h.jobs, by simpa using hj⟩
  cases ha with
  | quiet ha => exact keeps ha.graph ha.jobs
  | unready ha i => exact keeps ha.graph ha.jobs
  | unmoved | refused | empty => exact keeps rfl rfl
  | attached p type value => exact ⟨changes _ rfl trivial, h.jobs⟩
  | @doomed id p _ _ hp hd _ hpost =>
    have hlater : g₀.parties.length ≤ id := by simpa [hd] using now.dynamic id p hp
    cases hpost with
    | refused => exact ⟨changes (.doom id) rfl hlater, h.jobs⟩
    | accepted hopen =>
      exact ⟨changes (.doom id) rfl hlater,
        more (.destroy id) hlater (Agent.jobs_send_of_open hopen _)⟩
  | @stranded owner _ c parties => exact ⟨changes _ rfl (made owner c parties), h.jobs⟩
  | @enlisted owner _ c parties _ _ _ hopen =>
    refine ⟨changes _ rfl (made owner c parties),
      more (.add (s.batch owner c parties)) (fun id hid => ?_) (Agent.jobs_send_of_open hopen _)⟩
    have hmem : id ∈ s.draftIds owner c parties :=
      family_batch s owner c parties ▸ Batch.mem_family.mpr (.inl hid)
    exact Nat.le_trans now.length (List.mem_range'_1.mp hmem).1

/-- A batch is put into the graph. -/
theorem published (h : s.Permanence g₀ (.add b :: line)) (hs : g₀.Sound)
    (hc : Coherent g₀ (.busy (.add b)) line s) (hroom : s.graph.Room (b.family s.graph)) :
    (s.publish b).Permanence g₀ line := by
  obtain ⟨n, hlined⟩ := hc.lined
  obtain ⟨_, _, -, ready⟩ := hlined.ready List.mem_cons_self
  have later : ∀ id ∈ b.parties, g₀.parties.length ≤ id := h.jobs _ List.mem_cons_self
  refine ⟨(publish_induction (P := fun _ t => t.Always (Graph.Permanent g₀) g₀) ready.fits hc.sound
    hroom (fun id _ t hid _ ht => ?_) (fun id _ t hid _ ht => ?_) h.permanent).2, h.tail.jobs⟩
  · have inserted := ht.permanent hs (c := .insert id) (later id (List.mem_append_left _ hid))
    exact inserted.tellOfRemote _ _
  · have inserted := ht.permanent hs (c := .insert id) (later id (List.mem_append_right _ hid))
    exact (inserted.record rfl).tellOfRemotes _ _ _

/-- A party leaves. Those who leave with it were in its list. -/
theorem removed (h : s.Permanence g₀ (.destroy id :: line)) (hs : g₀.Sound) :
    (s.removeParty id p).Permanence g₀ line := by
  have hid : g₀.parties.length ≤ id := h.jobs _ List.mem_cons_self
  have left := h.permanent.permanent hs (c := .remove id) hid
  refine ⟨removeParty_induction (P := fun t => t.Always (Graph.Permanent g₀) g₀) s id p
    (fun _ => left) (fun _ => left.permanent hs (c := .clear id) hid)
    (fun t _ _ ht => ht.record rfl) (fun t i hi ht => ht.permanent hs (c := .complete i) ?_),
    h.tail.jobs⟩
  rcases hi with rfl | ⟨-, hi⟩
  · exact hid
  · exact left.now.later id hid i hi

end Permanence

theorem steady_permanence (hs : g₀.Sound) :
    Steady g₀ fun stage line s => s.Permanence g₀ (stage.pending ++ line) where
  asked _ h ha := h.asked hs ha
  aside h ha := ⟨h.permanent.aside ha, h.jobs⟩
  taken {c line s} h := by
    have hjobs : (Stage.ofCall c).pending ++ line = c.job?.toList ++ line := by
      cases c <;> rfl
    rw [hjobs]
    exact h.record rfl
  dropped {j _ _} h := by
    cases j with
    | add b => exact h.tail.record rfl
    | destroy id => exact h.tail
  left h := h.tail
  removed _ h _ _ := h.removed hs
  failed _ h := h.tail.record rfl
  published hc h hroom := h.published hs hc hroom
  succeeded _ h := h.record rfl

theorem permanence_play {c : IdentityConfiguration} {place : DataPlace} (h : new c place = .ok s)
    (moves : List Move) : (s.play moves).Permanence s.graph (s.play moves).jobs := by
  obtain ⟨r, -, blank⟩ := blank_of_new h
  have start : s.Permanence s.graph s.jobs := by
    refine ⟨⟨by rw [blank.journal]; rfl, fun j hj => ?_⟩, by simp [blank.jobs]⟩
    rw [blank.journal] at hj
    rw [List.suffix_nil.mp hj, blank.graph]
    exact Graph.permanent_ofResolved r
  exact ((steady_permanence (coherent_of_new h).sound).play_new h start moves).2

/-! ### Requests -/

/-- Whether a request for the destruction of a party is refused since it is not dynamic, and nothing
comes of it but an entry in the journal. -/
structure Refuses (s : Service) (id : PartyId) : Prop where
  /-- Without the entry. -/
  doom : s.doom id = (.error (.notDynamic (s.graph.nameText (.owned id))), s)
  answer : (s.destroy id).1 = .error (.notDynamic (s.graph.nameText (.owned id)))
  graph : (s.destroy id).2.graph = s.graph
  agent : (s.destroy id).2.agent = s.agent
  signals : ∀ channel, (s.destroy id).2.signals channel = s.signals channel
  /-- Whoever waits for the destruction is told so whenever they look. -/
  returned : ∀ s' : Service, s'.destroyReturn? id (s.destroy id).1
    = some (.error (.notDynamic (s.graph.nameText (.owned id))))

theorem refuses_of_not_dynamic (hp : s.graph.party? id = some p) (hd : p.dynamic = false) :
    s.Refuses id := by
  have hname : s.graph.nameText (.owned id) = p.name.text := by
    simp [Graph.nameText, Graph.name?, Graph.configuration?, hp, OwnedParty.name]
  have hdoom : s.doom id = (.error (.notDynamic (s.graph.nameText (.owned id))), s) := by
    simp [Service.doom, hp, hd, hname]
  have hdestroy : s.destroy id = (.error (.notDynamic (s.graph.nameText (.owned id))),
      s.record (.askedToDestroy id (.error (.notDynamic (s.graph.nameText (.owned id)))))) := by
    rw [destroy, hdoom]
  constructor
  case doom => exact hdoom
  case answer => rw [hdestroy]
  case graph => rw [hdestroy]; rfl
  case agent => rw [hdestroy]; rfl
  case signals =>
    intro channel
    rw [hdestroy]
    simp [signals]
  case returned =>
    intro s'
    rw [hdestroy]
    rfl

/-- Whoever was there in the beginning is known, and not dynamic. -/
theorem refuses_of_permanent (h : g₀.Permanent s.graph) (hid : id < g₀.parties.length) :
    s.Refuses id := by
  have hp : s.graph.party? id = some _ :=
    List.getElem?_eq_getElem (Nat.lt_of_lt_of_le hid h.length)
  refine refuses_of_not_dynamic hp ?_
  rw [h.dynamic id _ hp]
  exact decide_eq_false (Nat.not_le.mpr hid)

/-! ### Static parties -/

/-- What is said of the parties of a configuration after a history of a new service. -/
structure StaticsStay (s₀ : Service) (moves : List Move) : Prop where
  /-- The points of the history end with the one after it. -/
  last : (s₀.play moves).graph = s₀.graph.after (s₀.play moves).journal
  /-- They are in their lists, at the front and in order, none of them is being destroyed, and none
  of them is in the list of a dynamic tenant domain. -/
  permanent : ∀ j, j <:+ (s₀.play moves).journal → s₀.graph.Permanent (s₀.graph.after j)
  /-- Each of them is in the list of its owner. -/
  listed : ∀ j, j <:+ (s₀.play moves).journal → ∀ id < s₀.graph.parties.length,
    id ∈ (s₀.graph.after j).siblings id
  /-- Whoever asks for the destruction of one of them is refused, at every point. -/
  refused : ∀ j, j <:+ (s₀.play moves).journal → ∀ s : Service, s.graph = s₀.graph.after j →
    ∀ id < s₀.graph.parties.length, s.Refuses id

/-- **Static parties are permanent.** The parties of a configuration are in the graph at every
point, in their order and before all others, and nobody can have them destroyed. -/
theorem staticsStay {c : IdentityConfiguration} {place : DataPlace} {s₀ : Service}
    (h : new c place = .ok s₀) (moves : List Move) : s₀.StaticsStay moves := by
  have kept := (permanence_play h moves).permanent
  constructor
  case last => exact kept.graph
  case permanent => exact kept.each
  case listed =>
    intro j hj id hid
    refine (kept.each j hj).mem_siblings ?_
    obtain ⟨r, hr, blank⟩ := blank_of_new h
    obtain ⟨-, -, hresolve⟩ := Except.exists_of_bind_eq_ok hr
    rw [blank.graph] at hid ⊢
    exact Graph.mem_siblings_ofResolved (resolveRoot_proper hresolve) hid
  case refused =>
    intro j hj s hg id hid
    exact refuses_of_permanent (hg ▸ kept.each j hj) hid

/-- A remote party, and a tenant domain with another. -/
def household : IdentityConfiguration :=
  { IdentityConfiguration.default with
    root := { PartySection.blank with
      parties := [{ PartySection.blank with partyName := some "R" },
        { PartySection.blank with
          domainName := some "T", partyName := some "T",
          parties := [{ PartySection.blank with partyName := some "R" }] }] } }

theorem exists_new_household : ∃ s, new household ⟨"/home", none⟩ = .ok s := ⟨_, rfl⟩

/-- Remote parties are added to the root and to the domain, and a second domain comes and goes.
Then someone asks for the destruction of the first. -/
def visitors : List Move :=
  [.request .start, .deliver,
    .request (.add .root .any { PartySection.blank with partyName := some "S" }), .deliver,
    .request (.add (.owned 1) .any { PartySection.blank with partyName := some "S" }), .deliver,
    .request (.add .root .any { PartySection.blank with
      domainName := some "U", partyName := some "U",
      parties := [{ PartySection.blank with partyName := some "R" }] }), .deliver,
    .request (.destroy 5), .deliver, .request (.destroy 1)]

theorem staticsStay_of_visitors :
    ∃ s₀, new household ⟨"/home", none⟩ = .ok s₀ ∧ s₀.StaticsStay visitors := by
  obtain ⟨s₀, h⟩ := exists_new_household
  exact ⟨s₀, h, staticsStay h _⟩

/-- What the lists are after that. -/
example : (new household ⟨"/home", none⟩).toOption.map (fun s =>
    let g := (s.play visitors).graph
    (g.remotes, g.tenants, g.remotesOf (.owned 1), g.isGone 5, g.isDestroyed 1))
      = some ([0, 3], [1], [2, 4], true, false) := by
  decide +kernel

end Service

end PartyGraph
