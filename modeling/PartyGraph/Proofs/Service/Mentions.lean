import PartyGraph.Proofs.Graph.Declarations
import PartyGraph.Proofs.Section.Mentions
import PartyGraph.Proofs.Service.Steady

/-!
# Features are allowed by the nearest mention

A driver asks for a party whether it may have the feature. The answer is computed from three
policies, one above the other: that of the root, which was asked when the driver was registered,
that of the owner of the party and that of the party itself. Each of them was merged from the
sections around, so most sections are asked more than once, and the owner of a tenant domain is the
root even if the section of the domain stands within that of another.

What comes out is nevertheless what one reads off the sections: those around the section of the
party, up to the section that the party was added with, then those around the section of the owner
that it was added to, and so on up to the section of the root. The first of them that mentions the
feature decides, and the default of the driver if there is none.

The sections are found with the journal, which tells for every party with which section and to which
owner it was added (`Service.sectionChain`).

## Main definitions

* `Service.sectionChain`: the sections around a party, from its own outwards.
* `Service.Traced`: the policy of each party is that of its chain.

## Main results

* `Service.Traced.made`: an addition.
* `Service.steady_traced`, `Service.traced_play`: any history.
-/

namespace PartyGraph

theorem Entry.IsAside.made {e : Entry} (h : e.IsAside) : e.made = [] := by
  cases e <;> first | rfl | cases h

theorem Entry.OfHandling.made {e : Entry} (h : e.OfHandling) : e.made = [] := by
  cases e <;> first | rfl | cases h

/-- The parties of a draft are declared as they should, and inherit from their owners. -/
theorem Parties.Governed.draft {ps : Parties} {declares : PartyConfiguration → Prop}
    {root c : PartyConfiguration} {owner : PartyRef} {dynamic : Bool} {first : PartyId}
    {p : OwnedParty} (h : ps.Governed declares)
    (inherits : ∀ x, declares x → x.policy.Inherits c.policy) (hc : c.policy.Inherits root.policy)
    (hp : p ∈ (Draft.make root owner c dynamic first ps).parties) :
    declares p.configuration ∧ p.configuration.policy.Inherits p.ownerConfiguration.policy ∧
      p.ownerConfiguration.policy.Inherits root.policy := by
  rcases Draft.mem_make hp with ⟨r, hr, hdecl⟩ | ⟨t, ht, hdecl | ⟨r, hr, hdecl⟩⟩
  · obtain ⟨rfl, rfl⟩ := Prod.mk.inj hdecl
    exact ⟨h.remotes _ hr, inherits _ (h.remotes _ hr), hc⟩
  · obtain ⟨hconf, hown⟩ := Prod.mk.inj hdecl
    have ht := (h.tenants t ht).1
    rw [hconf, hown]
    exact ⟨ht, (inherits _ ht).trans hc, .refl _⟩
  · obtain ⟨hconf, hown⟩ := Prod.mk.inj hdecl
    obtain ⟨ht, hremotes⟩ := h.tenants t ht
    rw [hconf, hown]
    exact ⟨(hremotes r hr).1, (hremotes r hr).2, (inherits _ ht).trans hc⟩

namespace Service

variable {s s' : Service} {g g' : Graph} {root : PartySection} {journal : List Entry}

/-! ### Chains of sections -/

/-- The sections around a party, its own first, in a graph that began with the section `root`. The
journal, the latest entry of which comes first, tells what was added to which owner. -/
def sectionChain (root : PartySection) (g : Graph) :
    List Entry → PartyRef → Option (List PartySection)
  | _, .root => some [root]
  | [], .owned id => (g.configuration? (.owned id)).bind fun c => root.chain? c.path.indices
  | .askedToAdd owner increment made _ :: journal, .owned id =>
    if id ∈ made then
      (g.configuration? (.owned id)).bind fun c =>
        (increment.chain? c.path.indices).bind fun own =>
          (sectionChain root g journal owner).map (own ++ ·)
    else sectionChain root g journal (.owned id)
  | _ :: journal, .owned id => sectionChain root g journal (.owned id)

@[simp] theorem sectionChain_root : sectionChain root g journal .root = some [root] := by
  cases journal with
  | nil => rfl
  | cons e journal => cases e <;> rfl

/-- An entry says nothing of the parties that were not made for it. -/
theorem sectionChain_cons {e : Entry} {id : PartyId} (h : id ∉ e.made) :
    sectionChain root g (e :: journal) (.owned id) = sectionChain root g journal (.owned id) := by
  cases e with
  | askedToAdd owner increment made answer => exact if_neg h
  | _ => rfl

theorem sectionChain_append {new : List Entry} (h : ∀ e ∈ new, e.made = []) (p : PartyRef) :
    sectionChain root g (new ++ journal) p = sectionChain root g journal p := by
  cases p with
  | root => rw [sectionChain_root, sectionChain_root]
  | owned id =>
    induction new with
    | nil => rfl
    | cons e new ih =>
      rw [List.forall_mem_cons] at h
      rw [List.cons_append, sectionChain_cons (by simp [h.1]), ih h.2]

theorem configuration?_owned (g : Graph) (id : PartyId) :
    g.configuration? (.owned id) = (g.declarations[id]?).map (·.1) := by
  rw [Graph.getElem?_declarations, Option.map_map]
  rfl

theorem configuration?_of_prefix (h : g.declarations <+: g'.declarations) {id : PartyId}
    {c : PartyConfiguration} (hc : g.configuration? (.owned id) = some c) :
    g'.configuration? (.owned id) = some c := by
  rw [configuration?_owned] at hc ⊢
  obtain ⟨new, hnew⟩ := h
  obtain ⟨d, hd, rfl⟩ := Option.map_eq_some_iff.mp hc
  rw [← hnew, List.getElem?_append_left (List.getElem?_eq_some_iff.mp hd).1, hd]
  rfl

/-- The parties that are made later are on no chain. -/
theorem sectionChain_of_prefix (h : g.declarations <+: g'.declarations) {p : PartyRef}
    {chain : List PartySection} (hc : sectionChain root g journal p = some chain) :
    sectionChain root g' journal p = some chain := by
  induction journal generalizing p chain with
  | nil =>
    cases p with
    | root => exact hc
    | owned id =>
      obtain ⟨c, hconf, hchain⟩ := Option.bind_eq_some_iff.mp hc
      exact Option.bind_eq_some_iff.mpr ⟨c, configuration?_of_prefix h hconf, hchain⟩
  | cons e journal ih =>
    cases p with
    | root => rwa [sectionChain_root] at hc ⊢
    | owned id =>
      by_cases hmade : id ∈ e.made
      · cases e with
        | askedToAdd owner increment made answer =>
          have hmade : id ∈ made := hmade
          simp only [sectionChain, if_pos hmade, Option.bind_eq_some_iff,
            Option.map_eq_some_iff] at hc ⊢
          obtain ⟨c, hconf, own, hown, outer, houter, hchain⟩ := hc
          exact ⟨c, configuration?_of_prefix h hconf, own, hown, outer, ih houter, hchain⟩
        | _ => cases hmade
      · rw [sectionChain_cons hmade] at hc ⊢
        exact ih hc

/-! ### Policies are those of the chains -/

/-- The policy of each party is that of its chain of sections, and mentions all that the policies
above it mention. -/
structure Traced (root : PartySection) (s : Service) : Prop where
  top : s.graph.root.policy.Follows [root] .none
  parties : ∀ id c o, s.graph.declarations[id]? = some (c, o) →
    ∃ chain, sectionChain root s.graph s.journal (.owned id) = some chain ∧
      c.policy.Follows chain .none ∧ c.policy.Inherits o.policy ∧
        o.policy.Inherits s.graph.root.policy

namespace Traced

/-- Parties that have been made are known by their declarations and the entries of additions. -/
theorem grow (h : s.Traced root) (new : List Entry) (hroot : s'.graph.root = s.graph.root)
    (hdecl : s'.graph.declarations = s.graph.declarations)
    (hj : s'.journal = new ++ s.journal) (hnew : ∀ e ∈ new, e.made = []) : s'.Traced root := by
  refine ⟨hroot ▸ h.top, fun id c o hid => ?_⟩
  obtain ⟨chain, hchain, hrest⟩ := h.parties id c o (hdecl ▸ hid)
  refine ⟨chain, ?_, hroot ▸ hrest⟩
  rw [hj, sectionChain_append hnew]
  exact sectionChain_of_prefix (hdecl ▸ List.prefix_refl _) hchain

theorem record (h : s.Traced root) {e : Entry} (he : e.made = []) : (s.record e).Traced root :=
  h.grow [e] rfl rfl rfl (by simpa using he)

/-- What holds of any party, the root included. -/
theorem configured (h : s.Traced root) {p : PartyRef} {c : PartyConfiguration}
    (hc : s.graph.configuration? p = some c) :
    ∃ chain, sectionChain root s.graph s.journal p = some chain ∧ c.policy.Follows chain .none ∧
      c.policy.Inherits s.graph.root.policy := by
  cases p with
  | root =>
    cases hc
    exact ⟨[root], sectionChain_root, h.top, .refl _⟩
  | owned id =>
    rw [configuration?_owned] at hc
    obtain ⟨⟨c', o⟩, hid, rfl⟩ := Option.map_eq_some_iff.mp hc
    obtain ⟨chain, hchain, hfollows, hown, hroot⟩ := h.parties id c' o hid
    exact ⟨chain, hchain, hfollows, hown.trans hroot⟩

/-- Parties are made for an addition. -/
theorem made {owner : PartyRef} {increment : PartySection} {c : PartyConfiguration}
    {parties : Parties} {answer : Except IdentityError Added} (h : s.Traced root)
    (ha : s.Admits owner increment c parties)
    (hg : s'.graph = s.graph.apply (.make (s.draft owner c parties).parties))
    (hj : s'.journal = .askedToAdd owner increment (s.draftIds owner c parties) answer ::
      .changed (.make (s.draft owner c parties).parties) :: s.journal) : s'.Traced root := by
  obtain ⟨outer, houter, hfollows, hinherits⟩ := h.configured ha.configured
  have hroot : s'.graph.root = s.graph.root := hg ▸ Graph.root_apply ..
  have hdecl : s'.graph.declarations = s.graph.declarations ++
      (s.draft owner c parties).parties.map OwnedParty.declaration :=
    hg ▸ Graph.declarations_make ..
  have hprefix : s.graph.declarations <+: s'.graph.declarations := ⟨_, hdecl.symm⟩
  have older {p : PartyRef} {chain : List PartySection}
      (hp : sectionChain root s.graph s.journal p = some chain) :
      sectionChain root s'.graph (.changed (.make (s.draft owner c parties).parties) :: s.journal) p
        = some chain := by
    rw [← List.singleton_append, sectionChain_append (by simp [Entry.made])]
    exact sectionChain_of_prefix hprefix hp
  refine ⟨hroot ▸ h.top, fun id c' o hid => ?_⟩
  have hconf : s'.graph.configuration? (.owned id) = some c' := by
    rw [configuration?_owned, hid]
    rfl
  rw [hroot, hj]
  rw [hdecl] at hid
  by_cases hlt : id < s.graph.declarations.length
  · rw [List.getElem?_append_left hlt] at hid
    obtain ⟨chain, hchain, hrest⟩ := h.parties id c' o hid
    refine ⟨chain, ?_, hrest⟩
    rw [sectionChain_cons]
    · exact older hchain
    · rw [Graph.length_declarations] at hlt
      exact fun hmade => Nat.not_le.mpr hlt (List.mem_range'_1.mp hmade).1
  · rw [List.getElem?_append_right (Nat.not_lt.mp hlt)] at hid
    obtain ⟨p, hp, hpdecl⟩ := List.mem_map.mp (List.mem_of_getElem? hid)
    obtain ⟨rfl, rfl⟩ := Prod.mk.inj hpdecl
    obtain ⟨⟨indices, own, hpath, hown, hchain⟩, hinh, habove⟩ :=
      (governed_increment ha.resolved).draft (fun _ hx => hx.inherits) hinherits hp
    refine ⟨own ++ outer, ?_, hchain.trans hfollows, hinh, habove⟩
    have hmade : id ∈ s.draftIds owner c parties := by
      have hbound := (List.getElem?_eq_some_iff.mp hid).1
      rw [List.length_map, Graph.length_declarations] at hbound
      rw [Graph.length_declarations] at hlt
      exact List.mem_range'_1.mpr ⟨Nat.not_lt.mp hlt, by omega⟩
    have hindices : p.configuration.path.indices = indices := by simp [hpath, SectionPath.increment]
    simp [sectionChain, hmade, hconf, hindices, hown, older houter]

/-- Requests. -/
theorem asked (h : s.Traced root) (ha : s.Asked s') : s'.Traced root := by
  have changed {c : GraphChange} (hc : ∀ ps, c ≠ .make ps) : (s.change c).Traced root :=
    h.grow [.changed c] (Graph.root_apply ..) (Graph.declarations_apply _ hc) rfl
      (by simp [Entry.made])
  cases ha with
  | quiet hq =>
    exact h.grow [] (by rw [hq.graph]) (by rw [hq.graph]) hq.journal (by simp)
  | @unready s₁ hq i =>
    have same : s₁.Traced root :=
      h.grow [] (by rw [hq.graph]) (by rw [hq.graph]) hq.journal (by simp)
    exact same.record rfl
  | attached => exact changed (by simp)
  | unmoved | refused | empty => exact h.record rfl
  | @doomed id _ _ _ _ _ _ hpost =>
    have doomed := changed (c := .doom id) (by simp)
    refine Traced.record ?_ rfl
    cases hpost with
    | accepted => exact doomed.grow [] rfl rfl rfl (by simp)
    | refused => exact doomed
  | stranded hadmits | enlisted hadmits => exact h.made hadmits rfl rfl

end Traced

theorem root_after (g : Graph) (new : List Entry) : (g.after new).root = g.root := by
  induction new with
  | nil => rfl
  | cons e new ih =>
    cases e with
    | changed c => exact (Graph.root_apply ..).trans ih
    | _ => exact ih

theorem declarations_after (g : Graph) (new : List Entry) :
    g.declarations <+: (g.after new).declarations := by
  induction new with
  | nil => exact List.prefix_refl _
  | cons e new ih =>
    cases e with
    | changed c => exact ih.trans (Graph.declarations_prefix _ c)
    | _ => exact ih

/-- Parties are put into the graph or taken out of it, and none is made. -/
theorem Traced.noted (h : s.Traced root) (hn : s.Noted s')
    (hlength : s'.graph.parties.length = s.graph.parties.length) : s'.Traced root := by
  obtain ⟨new, hj, hg, hall⟩ := hn.journal
  refine h.grow new (hg ▸ root_after ..) ?_ hj fun e he => (hall e he).made
  have hgrown := hg ▸ declarations_after s.graph new
  exact (hgrown.eq_of_length (by rw [Graph.length_declarations, Graph.length_declarations,
    hlength])).symm

theorem steady_traced (g₀ : Graph) (root : PartySection) :
    Steady g₀ fun _ _ s => s.Traced root where
  asked _ h ha := h.asked ha
  aside h ha := by
    obtain ⟨new, hj, hall⟩ := ha.journal
    exact h.grow new (by rw [ha.graph]) (by rw [ha.graph]) hj fun e he => (hall e he).made
  taken h := h.record rfl
  dropped {j} _ _ h := by
    cases j with
    | add b => exact h.record rfl
    | destroy id => exact h
  left h := h
  removed {id p _ _} hs h hp _ := h.noted (noted_removeParty ..)
    ((alike_removeParty ..).length.trans Graph.length_without)
  failed _ h := h.record rfl
  published hs h hroom := by
    obtain ⟨n, m, ready⟩ := hs.ready
    exact h.noted (noted_publish ..) (publishing_publish ready.fits hs.sound hroom).length
  succeeded _ h := h.record rfl

/-- The parties of a new service. -/
theorem traced_of_blank {r : ResolvedRoot} (hr : resolveRoot root = .ok r) (hs : s.Blank r) :
    s.Traced root := by
  obtain ⟨hroot, governed⟩ := governed_root hr
  have hdecl : s.graph.declarations = (Draft.make r.root .root r.root false 0 r.parties).parties.map
      OwnedParty.declaration := by
    rw [hs.graph]
    rfl
  have htop : s.graph.root = r.root := by rw [hs.graph]; rfl
  refine ⟨htop ▸ hroot, fun id c o hid => ?_⟩
  have hconf : s.graph.configuration? (.owned id) = some c := by
    rw [configuration?_owned, hid]
    rfl
  rw [hdecl] at hid
  obtain ⟨p, hp, hpdecl⟩ := List.mem_map.mp (List.mem_of_getElem? hid)
  obtain ⟨rfl, rfl⟩ := Prod.mk.inj hpdecl
  obtain ⟨⟨⟨indices, chain, hpath, hchain, hfollows⟩, -⟩, hinh, habove⟩ :=
    governed.draft (fun _ hx => hx.2) (.refl _) hp
  refine ⟨chain, ?_, hfollows, hinh, htop ▸ habove⟩
  have hindices : p.configuration.path.indices = indices := by simp [hpath, SectionPath.root]
  simp [hs.journal, sectionChain, hconf, hindices, hchain]

theorem Moved.registryRoot {h? : Option (Service × Agent.Call IdentityJob)} (h : s.Moved h? s')
    (hs : s.Orderly) : s'.registry.root = s.registry.root := by
  cases h with
  | works hw => exact hw.root
  | installed hw => exact hw.root
  | released => rfl
  | abandoned => rw [(noted_answerDropped ..).registry]
  | exited => rw [(noted_answerDropped ..).registry]
  | handled ht hh => exact (hh.kept (hs.taken ht) (by simp [ht.loop])).root

theorem root_play {c : IdentityConfiguration} {place : DataPlace} (h : new c place = .ok s)
    (moves : List Move) : (s.play moves).registry.root = (s.play moves).graph.root := by
  obtain ⟨r, -, blank⟩ := blank_of_new h
  have hgraph : (s.play moves).graph.root = s.graph.root := by
    rw [(coherent_play h moves).graph]
    exact root_after ..
  have hregistry : (s.play moves).registry.root = s.registry.root :=
    moved_induction (P := fun t => t.registry.root = s.registry.root)
      (coherent_of_new h).orderly rfl (fun _ _ _ ho ht hm => (hm.registryRoot ho).trans ht) moves
  rw [hregistry, hgraph, blank.root, blank.graph]
  rfl

theorem traced_play {c : IdentityConfiguration} {place : DataPlace} (h : new c place = .ok s)
    (moves : List Move) : (s.play moves).Traced c.root := by
  obtain ⟨r, hr, blank⟩ := blank_of_new h
  obtain ⟨-, -, hroot⟩ := Except.exists_of_bind_eq_ok hr
  exact ((steady_traced s.graph c.root).play_new h (traced_of_blank hroot blank) moves).2

/-! ### Answers to drivers -/

theorem register_eq_ok {typeName : String} {allowedByDefault : Bool} {meanwhile : List Request}
    {behaviour : Binding → HookCall → DriverScript} {b : Binding}
    (h : (s.register typeName allowedByDefault meanwhile behaviour).1 = .ok b) :
    b.rootAllowed = s.registry.root.isAllowedFeature b.featureName allowedByDefault := by
  rw [register] at h
  split at h
  · cases h
  · next b' hbind =>
    dsimp only at h
    split at h
    · cases h
    · cases h
      rw [Registry.bind] at hbind
      obtain ⟨featureName, -, hbind⟩ := Except.exists_of_bind_eq_ok hbind
      split at hbind
      · cases hbind
      · cases hbind
        rfl

/-- The policies above a party count for what its own does not mention, and they mention nothing
else. -/
theorem Traced.isAllowed (h : s.Traced root) {b : Binding} {allowedByDefault : Bool}
    (hb : b.rootAllowed = s.graph.root.isAllowedFeature b.featureName allowedByDefault)
    {p : PartyRef} {c : PartyConfiguration} (hp : s.graph.configuration? p = some c) :
    ∃ chain, sectionChain root s.graph s.journal p = some chain ∧
      b.isAllowed s.graph p = (nearestMention b.featureName chain).getD allowedByDefault := by
  have htop : b.rootAllowed = (nearestMention b.featureName [root]).getD allowedByDefault :=
    hb.trans (h.top.isAllowed ..)
  cases p with
  | root => exact ⟨[root], sectionChain_root, htop⟩
  | owned id =>
    obtain ⟨p, hparty, rfl⟩ := Option.map_eq_some_iff.mp hp
    have hid : s.graph.declarations[id]? = some (p.configuration, p.ownerConfiguration) := by
      rw [Graph.getElem?_declarations, hparty]
      rfl
    obtain ⟨chain, hchain, hfollows, hown, habove⟩ := h.parties id _ _ hid
    refine ⟨chain, hchain, ?_⟩
    rw [Binding.isAllowed, hparty]
    show p.configuration.policy.isAllowed b.featureName
      (p.ownerConfiguration.policy.isAllowed b.featureName b.rootAllowed) = _
    rw [hfollows.isAllowed]
    cases hm : nearestMention b.featureName chain with
    | some v => rfl
    | none =>
      have hparty : p.configuration.policy.mention? b.featureName = none := by
        rw [hfollows.mention, hm, FeaturePolicy.mention?_none, Option.or_none]
      have howner := hown _ hparty
      have htop := habove _ howner
      rw [FeaturePolicy.isAllowed_of_mention?_eq_none howner, hb]
      exact FeaturePolicy.isAllowed_of_mention?_eq_none htop _

/-- Whether a driver is told of every party what the nearest section says that mentions the feature,
or else the default of the driver. -/
def FollowsMentions (s : Service) (root : PartySection) (b : Binding) (allowedByDefault : Bool) :
    Prop :=
  ∀ p c, s.graph.configuration? p = some c →
    ∃ chain, sectionChain root s.graph s.journal p = some chain ∧
      b.isAllowed s.graph p = (nearestMention b.featureName chain).getD allowedByDefault

/-- **The nearest mention decides.** Whatever happened before a driver was registered and whatever
has happened since, the driver is told of every party what the nearest mention says. -/
theorem nearestMentionDecides {c : IdentityConfiguration} {place : DataPlace} {s₀ : Service}
    (h : new c place = .ok s₀) (before after : List Move) {typeName : String}
    {allowedByDefault : Bool} {meanwhile : List Request}
    {behaviour : Binding → HookCall → DriverScript} {b : Binding}
    (hb : ((s₀.play before).register typeName allowedByDefault meanwhile behaviour).1 = .ok b) :
    (s₀.play (before ++ .register typeName allowedByDefault meanwhile behaviour :: after))
      |>.FollowsMentions c.root b allowedByDefault := by
  intro p c' hp
  refine (traced_play h _).isAllowed ?_ hp
  rw [register_eq_ok hb, root_play h, (coherent_play h _).graph, (coherent_play h _).graph,
    root_after, root_after]

/-- A tenant domain whose section disallows two features is added, with a remote party within that
mentions none. -/
def quarantine : List Move :=
  [.request .start, .deliver,
    .request (.add .root .any { PartySection.blank with
      domainName := some "T", partyName := some "T", disallow := ["Beta, alpha"],
      parties := [{ PartySection.blank with partyName := some "R" }] }),
    .deliver]

/-- The remote party of the domain follows the section around its own. -/
theorem nearestMentionDecides_of_quarantine :
    ∃ s₀ b, new .default ⟨"/home", none⟩ = .ok s₀ ∧
      ((s₀.play []).register "AlphaFeatureDriver" true [] fun _ _ => .finish .succeeded).1 = .ok b ∧
      (s₀.play ([] ++ .register "AlphaFeatureDriver" true [] (fun _ _ => .finish .succeeded) ::
        quarantine)).FollowsMentions IdentityConfiguration.default.root b true := by
  obtain ⟨s₀, h⟩ := exists_new_default
  have hbound : (new .default ⟨"/home", none⟩).toOption.bind (fun s =>
      ((s.play []).register "AlphaFeatureDriver" true []
        fun _ _ => .finish .succeeded).1.toOption.map (·.featureName)) = some "Alpha" := rfl
  rw [h] at hbound
  cases hb :
      ((s₀.play []).register "AlphaFeatureDriver" true [] fun _ _ => .finish .succeeded).1 with
  | error e => simp [Except.toOption, hb] at hbound
  | ok b => exact ⟨s₀, b, h, hb, nearestMentionDecides h [] quarantine hb⟩

example : (new .default ⟨"/home", none⟩).toOption.map (fun s =>
    (sectionChain PartySection.blank (s.play quarantine).graph (s.play quarantine).journal
      (.owned 1)).map (·.map (·.disallow))) = some (some [[], ["Beta, alpha"], []]) := by
  decide +kernel

end Service

end PartyGraph
