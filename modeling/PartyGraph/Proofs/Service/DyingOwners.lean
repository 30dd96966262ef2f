import PartyGraph.Proofs.Service.Coverage
import PartyGraph.Proofs.Service.EventOrder

/-!
# Owners whose destruction is requested

When the destruction of a tenant domain is requested, the remote parties in its list are marked at
once. So everyone in the list of a marked tenant domain is marked, as long as nobody is put into the
list afterwards. An addition to such an owner is refused when it is asked for and again when it
comes to be handled. What is left is the time between the second check and the insertion: drivers
are called then, anyone may request the destruction of the owner, and nothing is checked any more.
So a party that is alive may come into the list of an owner that is marked.

Nothing else goes wrong. A history in which no request comes at such a time has no list of a marked
tenant domain with a party in it that is not, at no point, and such lists only lose parties. A
history with such a request puts a party into such a list.

The journal has an entry for each change of the graph, and the points of a history are the ends of
the journal. This includes those within a pass and those between the steps of a destruction.

## Main definitions

* `Graph.Dying`, `Graph.Marked`: tenant domains that are marked, and whether their lists are.
* `Graph.Regular`: the changes that a service makes.
* `NoneUnderDying`: whether all is well at all points of a history.
* `Overtaken`: an insertion that such a request came before.
* `Service.Watched`: what is kept.

## Main results

* `Graph.Marked.apply`: what a change does to the marks.
* `Service.noneUnderDying_iff`: all is well exactly if no insertion is overtaken.
* `Service.not_noneUnderDying_lateArrival`: a history in which one is.
-/

namespace PartyGraph

/-! ### Marks -/

namespace Graph

variable {g : Graph} {t : PartyId} {o : Option PartyRef} {c : GraphChange}

/-- Whether a party is a tenant domain whose destruction was requested. -/
def Dying (g : Graph) (t : PartyId) : Prop := g.IsTenant t ∧ g.isDestroyed t = true

/-- Whether the destruction of everyone in the list of such a tenant domain was requested, too. -/
def Marked (g : Graph) : Prop :=
  ∀ t, g.Dying t → ∀ r ∈ g.remotesOf (.owned t), g.isDestroyed r = true

/-- Whether a change is one that a service makes, when parties that are to be added to the owner `o`
are being set up, or none are. -/
inductive Regular (g : Graph) (o : Option PartyRef) : GraphChange → Prop
  | make {ps : List OwnedParty} (h : ∀ p ∈ ps, p.destroyState = .alive) : Regular g o (.make ps)
  | insert {r : PartyId} (h : ∀ t, g.IsRemote (.owned t) r → o = some (.owned t)) :
    Regular g o (.insert r)
  | remove (id : PartyId) : Regular g o (.remove id)
  | clear (id : PartyId) : Regular g o (.clear id)
  | doom {id : PartyId} (hs : g.Sound) (h : id < g.parties.length) : Regular g o (.doom id)
  | complete {id : PartyId} (ho : o = none) (h : g.IsTenant id → g.remotesOf (.owned id) = []) :
    Regular g o (.complete id)
  | attach (p : PartyRef) (type value : String) : Regular g o (.attach p type value)

/-- The list of a party that was made loses parties, unless a remote party is put there. -/
theorem remotesOf_apply (ht : t < g.parties.length) (c : GraphChange) :
    ((g.apply c).remotesOf (.owned t)).Sublist (g.remotesOf (.owned t)) ∨
      ∃ r, c = .insert r ∧ g.IsRemote (.owned t) r ∧
        (g.apply c).remotesOf (.owned t) = g.remotesOf (.owned t) ++ [r] := by
  have same {g' : Graph} (h : g'.remotesOf (.owned t) = g.remotesOf (.owned t)) :
      (g'.remotesOf (.owned t)).Sublist (g.remotesOf (.owned t)) := h ▸ List.Sublist.refl _
  cases c with
  | make ps =>
    refine .inl (same ((extends_make g ps).remotesOf _ ?_))
    rintro _ ⟨⟩
    exact ht
  | insert r =>
    rcases g.remotesOf_modifySiblings r (.inr (configured_of_lt ht)) with heq | ⟨hr, heq⟩
    · exact .inl (same heq)
    · exact .inr ⟨r, rfl, hr, heq⟩
  | remove r =>
    refine .inl ?_
    rcases g.remotesOf_modifySiblings r (f := (·.filter (· ≠ r))) (.inl rfl) with heq | ⟨-, heq⟩
    · exact same heq
    · exact heq ▸ List.filter_sublist
  | clear id =>
    rw [remotesOf_clear]
    split
    · exact .inl (List.nil_sublist _)
    · exact .inl (.refl _)
  | doom id => exact .inl (same ((alike_doom g id).remotesOf _))
  | complete id => exact .inl (same ((alike_complete g id).remotesOf _))
  | attach p type value => exact .inl (same ((alike_attach g p type value).remotesOf _))

/-- Only requests and completions make a tenant domain one that is marked. -/
theorem Dying.of_apply (h : (g.apply c).Dying t) (hc : g.Regular o c) :
    g.Dying t ∨ c = .doom t ∨ c = .complete t := by
  obtain ⟨htenant, hmarked⟩ := h
  have alive (ps : List OwnedParty) (hps : c = .make ps) : ∀ p ∈ ps, p.destroyState = .alive := by
    cases hc <;> cases hps
    assumption
  have old (hbefore : g.isDestroyed t = true) : g.Dying t := by
    exact ⟨htenant.congr (origin?_apply_of_lt g c (lt_of_isDestroyed hbefore)).symm, hbefore⟩
  rcases isDestroyed_of_apply alive hmarked with hbefore | rfl | ⟨id, rfl, rfl | hr⟩
  · exact .inl (old hbefore)
  · exact .inr (.inr rfl)
  · exact .inr (.inl rfl)
  · -- The others that a request marks are remote parties.
    cases hc with
    | doom hs _ =>
      exact absurd (htenant.congr (origin?_apply g (by simp) t).symm)
        (not_isTenant_of_isRemote (hs.remotes _ t hr))

/-- Marks stay complete unless someone is put into the list of a tenant domain that is marked. -/
theorem Marked.apply (h : g.Marked) (hc : g.Regular o c)
    (hinsert : ∀ r t, c = .insert r → g.IsRemote (.owned t) r → ¬ g.Dying t) :
    (g.apply c).Marked := by
  intro t ht r hr
  rcases ht.of_apply hc with hbefore | rfl | rfl
  · rcases remotesOf_apply hbefore.1.lt c with hsub | ⟨r', rfl, hr', -⟩
    · exact (forward_apply g c).isDestroyed (h t hbefore r (hsub.subset hr))
    · exact absurd hbefore (hinsert r' t rfl hr')
  · cases hc with
    | doom hs _ =>
      rw [(alike_doom g t).remotesOf] at hr
      exact isDestroyed_doom_iff.mpr (.inr ⟨(hs.remotes _ r hr).lt, .inr hr⟩)
  · cases hc with
    | complete _ hnone =>
      rw [(alike_complete g t).remotesOf,
        hnone (ht.1.congr (origin?_apply g (by simp) t).symm)] at hr
      cases hr

end Graph

/-! ### Insertions that a request came before -/

/-- Whether an entry tells that a pass to set up parties began. -/
def Entry.beginsAddition : Entry → Bool
  | .passBegun .setupDynamic _ => true
  | _ => false

/-- The entries since parties began to be set up, the latest first. -/
def sincePass (journal : List Entry) : List Entry := journal.takeWhile fun e => !e.beginsAddition

theorem sincePass_cons {e : Entry} (he : e.beginsAddition = false) (journal : List Entry) :
    sincePass (e :: journal) = e :: sincePass journal :=
  List.takeWhile_cons_of_pos (by simp [he])

/-- Whether an entry puts a remote party into the list of a tenant domain that is marked. -/
def UnderDying (g₀ : Graph) (e : Entry) (earlier : List Entry) : Prop :=
  ∃ r t, e = .changed (.insert r) ∧ (g₀.after earlier).IsRemote (.owned t) r ∧
    (g₀.after earlier).Dying t

/-- Whether an entry puts a remote party into the list of a tenant domain whose destruction was
requested since parties began to be set up. -/
def Overtaken (g₀ : Graph) (e : Entry) (earlier : List Entry) : Prop :=
  ∃ r t, e = .changed (.insert r) ∧ (g₀.after earlier).IsRemote (.owned t) r ∧
    (g₀.after earlier).IsTenant t ∧ .changed (.doom t) ∈ sincePass earlier

/-- Whether at all points of a history everyone in the list of a marked tenant domain is marked, and
such lists only lose parties. -/
structure NoneUnderDying (g₀ : Graph) (journal : List Entry) : Prop where
  marked : ∀ j, j <:+ journal → (g₀.after j).Marked
  shrinking : Each (fun e earlier => ∀ t, (g₀.after earlier).Dying t →
    ((g₀.after (e :: earlier)).remotesOf (.owned t)).Sublist
      ((g₀.after earlier).remotesOf (.owned t))) journal

namespace Service

variable {s s' : Service} {g₀ : Graph} {o : Option PartyRef} {c : GraphChange} {e : Entry}
  {line : List IdentityJob}

/-- The owner of the parties that are being set up. -/
def Underway.owner? : Underway → Option PartyRef
  | adding _ b => some b.owner
  | _ => none

/-- How insertions, requests and marks go together, when parties that are to be added to the owner
`o` are being set up, or none are. -/
structure Watched (g₀ : Graph) (o : Option PartyRef) (s : Service) : Prop where
  graph : s.graph = g₀.after s.journal
  requested : Each (fun e earlier => ∀ t, e = .changed (.doom t) →
    (g₀.after (e :: earlier)).isDestroyed t = true) s.journal
  overtaken : Each (fun e earlier => UnderDying g₀ e earlier → Overtaken g₀ e earlier) s.journal
  marked : Each (fun e earlier => ¬ UnderDying g₀ e earlier) s.journal →
    ∀ j, j <:+ s.journal → (g₀.after j).Marked
  /-- The owner was not marked when the pass began. -/
  under : ∀ t, o = some (.owned t) → s.graph.Dying t → .changed (.doom t) ∈ sincePass s.journal

namespace Watched

theorem congr (h : Watched g₀ o s) (hg : s'.graph = s.graph) (hj : s'.journal = s.journal) :
    Watched g₀ o s' where
  graph := hg ▸ hj ▸ h.graph
  requested := hj ▸ h.requested
  overtaken := hj ▸ h.overtaken
  marked := hj ▸ h.marked
  under := hg ▸ hj ▸ h.under

/-- The pass is over. -/
theorem settled (h : Watched g₀ o s) : Watched g₀ none s := { h with under := by simp }

/-- One more entry. -/
theorem cons (h : Watched g₀ o s) (hg : s'.graph = e.act s.graph) (hj : s'.journal = e :: s.journal)
    (requested : ∀ t, e = .changed (.doom t) → s'.graph.isDestroyed t = true)
    (overtaken : UnderDying g₀ e s.journal → Overtaken g₀ e s.journal)
    (marked : s.graph.Marked → ¬ UnderDying g₀ e s.journal → s'.graph.Marked)
    {o' : Option PartyRef}
    (under : ∀ t, o' = some (.owned t) → s'.graph.Dying t →
      .changed (.doom t) ∈ sincePass s'.journal) : Watched g₀ o' s' := by
  have hafter : s'.graph = g₀.after (e :: s.journal) := by
    rw [hg, h.graph]
    rfl
  constructor
  case graph => exact hj ▸ hafter
  case requested =>
    rw [hj]
    exact h.requested.cons fun t he => hafter ▸ requested t he
  case overtaken =>
    rw [hj]
    exact h.overtaken.cons overtaken
  case marked =>
    rw [hj]
    intro hnone j hsuffix
    have before := h.marked hnone.tail
    rcases List.suffix_cons_iff.mp hsuffix with rfl | hsuffix
    · have now : s.graph.Marked := h.graph ▸ before _ (List.suffix_refl _)
      exact hafter ▸ marked now (hnone e _ (List.suffix_refl _))
    · exact before j hsuffix
  case under => exact under

/-- An entry that tells of no change. -/
theorem record (h : Watched g₀ o s) (hchange : ∀ c, e ≠ .changed c)
    (hbegins : e.beginsAddition = false) : Watched g₀ o (s.record e) := by
  have hg : (s.record e).graph = e.act s.graph := by
    cases e <;> first | rfl | exact absurd rfl (hchange _)
  refine h.cons hg rfl (fun t he => absurd he (hchange _)) ?_ (fun hmarked _ => hmarked)
    fun t ho ht => ?_
  · rintro ⟨r, t, he, -⟩
    exact absurd he (hchange _)
  · rw [journal_record, sincePass_cons hbegins]
    exact List.mem_cons_of_mem _ (h.under t ho ht)

/-- Parties begin to be set up, whose owner is not marked. -/
theorem begun (h : Watched g₀ none s) (owner : PartyRef) (targets : List PartyId)
    (halive : ∀ t, owner = .owned t → s.graph.isDestroyed t = false) :
    Watched g₀ (some owner) (s.record (.passBegun .setupDynamic targets)) := by
  have hg : (s.record (.passBegun .setupDynamic targets)).graph
      = (Entry.passBegun .setupDynamic targets).act s.graph := rfl
  refine h.cons hg rfl (fun t he => by cases he) ?_ (fun hmarked _ => hmarked) fun t ho ht => ?_
  · rintro ⟨r, t, he, -⟩
    cases he
  · have hmarked := ht.2
    rw [graph_record, halive t (Option.some.inj ho)] at hmarked
    cases hmarked

/-- A change. -/
theorem change (h : Watched g₀ o s) (hc : s.graph.Regular o c) : Watched g₀ o (s.change c) := by
  have hg : (s.change c).graph = (Entry.changed c).act s.graph := rfl
  refine h.cons hg rfl ?_ ?_ (fun hmarked hno => hmarked.apply hc ?_) fun t ho ht => ?_
  · rintro t ⟨⟩
    cases hc with
    | doom _ hlt =>
      exact Graph.isDestroyed_doom_iff.mpr (.inr ⟨hlt, .inl rfl⟩)
  · rintro ⟨r, t, ⟨⟩, hr, ht⟩
    rw [← h.graph] at hr ht
    cases hc with
    | insert hown => exact ⟨r, t, rfl, h.graph ▸ hr, h.graph ▸ ht.1, h.under t (hown t hr) ht⟩
  · rintro r t rfl hr ht
    exact hno ⟨r, t, rfl, h.graph ▸ hr, h.graph ▸ ht⟩
  · show _ ∈ sincePass (.changed c :: s.journal)
    rw [sincePass_cons rfl]
    rcases ht.of_apply hc with hbefore | rfl | rfl
    · exact List.mem_cons_of_mem _ (h.under t ho hbefore)
    · exact List.mem_cons_self
    · cases hc with
      | complete hnone _ => cases hnone.symm.trans ho

theorem tellOfRemotes (h : Watched g₀ o s) (owner : PartyRef) (e : PartyId → PartyEvent)
    (rs : List PartyId) : Watched g₀ o (rs.foldl (fun s r => s.tellOfRemote owner (e r)) s) := by
  induction rs generalizing s with
  | nil => exact h
  | cons r rs ih => exact ih ((h.record (by simp) rfl).record (by simp) rfl)

/-- Requests. -/
theorem asked {stage : Stage} (h : Watched g₀ o s) (hf : Footing g₀ stage line s)
    (ha : s.Asked s') : Watched g₀ o s' := by
  have made (owner : PartyRef) (c : PartyConfiguration) (parties : Parties) :
      Watched g₀ o (s.change (.make (s.draft owner c parties).parties)) :=
    h.change (.make Draft.alive_make)
  cases ha with
  | quiet ha => exact h.congr ha.graph ha.journal
  | unready ha i => exact (h.congr ha.graph ha.journal).record (by simp) rfl
  | attached p type value => exact h.change (.attach p type value)
  | unmoved | refused | empty => exact h.record (by simp) rfl
  | @doomed id _ _ _ hp _ _ hpost =>
    have marked := h.change (.doom hf.1.sound (List.getElem?_eq_some_iff.mp hp).1)
    cases hpost with
    | @accepted hopen =>
      have posted : Watched g₀ o { s.change (.doom id) with
          agent := s.agent.send (.job (.destroy id)) } := marked.congr rfl rfl
      exact posted.record (by simp) rfl
    | refused => exact marked.record (by simp) rfl
  | @stranded owner _ c parties left =>
    have taken : Watched g₀ o
        ({ s with admissions := left }.change (.make (s.draft owner c parties).parties)) :=
      (made owner c parties).congr rfl rfl
    exact taken.record (by simp) rfl
  | @enlisted owner _ c parties left =>
    have posted : Watched g₀ o { s.change (.make (s.draft owner c parties).parties) with
        agent := s.agent.send (.job (.add (s.batch owner c parties)))
        admissions := left
        tickets := s.tickets + 1 } := (made owner c parties).congr rfl rfl
    exact posted.record (by simp) rfl

/-- The batch is put into the graph. -/
theorem published {b : Batch} (h : Watched g₀ (some b.owner) s) (hb : b.Fits s.graph)
    (hs : s.graph.Sound) (hroom : s.graph.Room (b.family s.graph)) :
    Watched g₀ none (s.publish b) := by
  refine (publish_induction (P := fun _ t => Watched g₀ (some b.owner) t) hb hs hroom
    (fun id rest t hid hp ht => ?_) (fun id rest t hid hp ht => ?_) h).2.settled
  · have hremote : t.graph.IsRemote b.owner id := (hb.remotes id hid).congr (hp.origin id)
    have inserted := ht.change (.insert fun _ hr => congrArg some (hremote.owner_unique hr))
    exact (inserted.record (by simp) rfl).record (by simp) rfl
  · have htenant : t.graph.IsTenant id := (hb.tenants id hid).congr (hp.origin id)
    have inserted := ht.change (.insert fun _ hr =>
      absurd htenant (Graph.not_isTenant_of_isRemote hr))
    exact (inserted.record (by simp) rfl).tellOfRemotes _ _ _

/-- The party leaves. -/
theorem removed {id : PartyId} {p : OwnedParty} (h : Watched g₀ none s) (hs : s.graph.Sound)
    (hp : s.graph.party? id = some p) : Watched g₀ none (s.removeParty id p) := by
  refine (removeParty_induction (P := fun t => Watched g₀ none t ∧
    Graph.Alike (s.graph.without id p) t.graph) s id p (fun hno => ?_) (fun hyes => ?_)
    (fun t channel e ht => ⟨ht.1.record (by simp) rfl, ht.2⟩) fun t i hi ht => ?_).1
  · exact ⟨h.change (.remove id), Graph.without_remote hno ▸ .refl _⟩
  · exact ⟨(h.change (.remove id)).change (.clear id), Graph.without_tenant hyes ▸ .refl _⟩
  · refine ⟨ht.1.change (.complete rfl fun htenant => ?_), ht.2.trans (Graph.alike_complete ..)⟩
    -- Of those who leave only the party itself may be a tenant domain, and its list is empty.
    have htenant' : s.graph.IsTenant i :=
      htenant.congr (((ht.2.origin i).trans (Graph.origin?_without i)).symm)
    rcases hi with rfl | ⟨hyes, hi⟩
    · have hyes : p.isTenant = true := by
        simpa [Graph.isTenant, hp] using Graph.isTenant_iff.mpr htenant'
      rw [ht.2.remotesOf, Graph.without_tenant hyes, Graph.remotesOf_clear, if_pos rfl]
    · have hremote := (hs.remove_tenant (Graph.isTenant_of_party? hp hyes)).remotes _ i hi
      exact absurd htenant' (Graph.not_isTenant_of_isRemote
        (hremote.congr (Graph.origin?_remove ..).symm))

/-- After the request the party is marked. -/
theorem isDestroyed (h : Watched g₀ o s) {j : List Entry} {t : PartyId} (hj : j <:+ s.journal)
    (hmem : .changed (.doom t) ∈ j) : (g₀.after j).isDestroyed t = true := by
  obtain ⟨new, earlier, rfl⟩ := List.append_of_mem hmem
  have marked := h.requested _ earlier ((List.suffix_append new _).trans hj) t rfl
  rw [Graph.after_append]
  exact (Graph.forward_after _ new).isDestroyed marked

end Watched

theorem lasting_watched (g₀ : Graph) (H : Service → Agent.Call IdentityJob → Prop) :
    Lasting g₀ H fun u _ s => Watched g₀ u.owner? s where
  same h hg hj := h.congr hg hj
  noted {_ _ _ e} h he := by
    refine h.record (fun c hc => by cases hc; cases he) ?_
    cases e with
    | passBegun hook targets => cases hook <;> first | rfl | cases he
    | _ => rfl
  asked hf h ha := h.asked hf ha
  left h := h
  adding _ h _ hr := h.begun _ _ fun _ ho => isDestroyed_of_batchRefusal hr ho
  failed h := h.settled
  published hf h _ hroom := by
    obtain ⟨n, m, ready⟩ := hf.1.ready
    exact Watched.published h ready.fits hf.1.sound hroom
  destroying _ h _ _ := h.record (by simp) rfl
  removed hf h hp _ := Watched.removed h hf.1.sound hp

theorem watched_play {c : IdentityConfiguration} {place : DataPlace} {s₀ : Service}
    (h : new c place = .ok s₀) (moves : List Move) :
    Watched s₀.graph none (s₀.play moves) := by
  obtain ⟨r, -, blank⟩ := blank_of_new h
  have hj := blank.journal
  have none (t : PartyId) : ¬ s₀.graph.Dying t := by
    rw [blank.graph]
    exact fun ht => by cases (Graph.isDestroyed_ofResolved r).symm.trans ht.2
  have start : Watched s₀.graph Underway.nothing.owner? s₀ := by
    constructor
    case graph => rw [hj]; rfl
    case requested => exact hj ▸ .nil
    case overtaken => exact hj ▸ .nil
    case marked =>
      rw [hj]
      rintro - j hsuffix
      rw [List.suffix_nil.mp hsuffix]
      exact fun t ht => absurd ht (none t)
    case under => exact fun t ht => by cases ht
  exact (lasting_watched s₀.graph fun _ _ => True).play_new h start moves fun _ _ => trivial

/-- **When nobody comes under a dying owner.** In a history of a new service all parties in the list
of a marked tenant domain are marked at all points, and such lists only lose parties, exactly if no
party is put into the list of a tenant domain whose destruction was requested since the party began
to be set up. -/
theorem noneUnderDying_iff {c : IdentityConfiguration} {place : DataPlace} {s₀ : Service}
    (h : new c place = .ok s₀) (moves : List Move) :
    NoneUnderDying s₀.graph (s₀.play moves).journal ↔
      Each (fun e earlier => ¬ Overtaken s₀.graph e earlier) (s₀.play moves).journal := by
  have watched := watched_play h moves
  constructor
  · rintro hnone e earlier hsuffix ⟨r, t, rfl, hr, ht, hdoom⟩
    have hearlier := (List.suffix_cons ..).trans hsuffix
    have hmarked := watched.isDestroyed hearlier (List.takeWhile_subset _ hdoom)
    have hsub := hnone.shrinking _ _ hsuffix t ⟨ht, hmarked⟩
    have hlist : (s₀.graph.after (.changed (.insert r) :: earlier)).remotesOf (.owned t)
        = (s₀.graph.after earlier).remotesOf (.owned t) ++ [r] := by
      have := Graph.remotesOf_insert_remote hr (Graph.configured_of_lt ht.lt) (.owned t)
      rwa [if_pos rfl] at this
    rw [hlist] at hsub
    exact absurd hsub.length_le (by simp)
  · intro hno
    have hunder : Each (fun e earlier => ¬ UnderDying s₀.graph e earlier)
        (s₀.play moves).journal :=
      fun e earlier hsuffix hunder => hno e earlier hsuffix (watched.overtaken _ _ hsuffix hunder)
    refine ⟨watched.marked hunder, fun e earlier hsuffix t ht => ?_⟩
    cases e with
    | changed c =>
      rcases Graph.remotesOf_apply ht.1.lt c with hsub | ⟨r, rfl, hr, -⟩
      · exact hsub
      · exact absurd ⟨r, t, rfl, hr, ht⟩ (hunder _ _ hsuffix)
    | _ => exact .refl _

/-- A tenant domain is added with a remote party, gets another one, and is destroyed. -/
theorem noneUnderDying_iff_of_lifeOfDomain :
    ∃ s₀, new .default ⟨"/home", none⟩ = .ok s₀ ∧
      (NoneUnderDying s₀.graph (s₀.play lifeOfDomain).journal ↔
        Each (fun e earlier => ¬ Overtaken s₀.graph e earlier) (s₀.play lifeOfDomain).journal) := by
  obtain ⟨s₀, h⟩ := exists_new_default
  exact ⟨s₀, h, noneUnderDying_iff h _⟩

/-- A driver that asks for the destruction of a tenant domain while a remote party is set up that is
to be added to it. -/
def turncoat (_ : Binding) (call : HookCall) : DriverScript :=
  match call.hook, call.target with
  | .setupDynamic, some 1 => .ask (.request (.destroy 0)) fun _ => .finish .succeeded
  | _, _ => .finish .succeeded

/-- With such a driver a remote party is added to a tenant domain. -/
def lateArrival : List Move :=
  [.register "AlphaFeatureDriver" true [] turncoat, .request .start, .deliver,
    .request (.add .root .any { PartySection.blank with
      domainName := some "T", partyName := some "T" }), .deliver,
    .request (.add (.owned 0) .any { PartySection.blank with partyName := some "R" }), .deliver]

/-- The remote party is alive and in the list of the tenant domain, which is not. -/
theorem not_noneUnderDying_lateArrival :
    ∃ s₀, new .default ⟨"/home", none⟩ = .ok s₀ ∧
      ¬ NoneUnderDying s₀.graph (s₀.play lateArrival).journal := by
  obtain ⟨s₀, h⟩ := exists_new_default
  have hend : (new .default ⟨"/home", none⟩).toOption.map (fun s =>
      let g := (s.play lateArrival).graph
      (g.isTenant 0, g.isDestroyed 0, g.remotesOf (.owned 0), g.isDestroyed 1)) =
      some (true, true, [1], false) := by
    decide +kernel
  rw [h, Except.toOption, Option.map_some, Option.some.injEq] at hend
  obtain ⟨htenant, hmarked, hlist, halive⟩ := by simpa using hend
  refine ⟨s₀, h, fun hnone => ?_⟩
  have marked : (s₀.play lateArrival).graph.Marked := by
    rw [(coherent_play h lateArrival).graph]
    exact hnone.marked _ (List.suffix_refl _)
  have := marked 0 ⟨Graph.isTenant_iff.mp htenant, hmarked⟩ 1 (by simp [hlist])
  rw [halive] at this
  cases this

end Service

end PartyGraph
