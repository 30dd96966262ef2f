import PartyGraph.Proofs.Feature.Chain
import PartyGraph.Proofs.Section.Distinct

/-!
# The nearest mention of a feature

A section mentions a feature when it lists it among those that it allows or disallows. Policies are
merged from the top of a tree to its leaves, and what comes out for a party must be what one reads
off the tree by going the other way: from its own section outwards, up to the first section that
mentions the feature.

The two sets of a policy are kept disjoint by the merge, whatever the sets of the policy above were.
That is why a policy can be asked for its mention of a feature, and why the answer for a feature
that it does mention does not depend on the answer of the level above. So it does no harm that the
sets which a party has inherited are evaluated again for its owner.

## Main definitions

* `PartySection.mention?`, `FeaturePolicy.mention?`: what a section, or a policy, says of a feature.
* `nearestMention`: what the first section of a chain says that mentions the feature.
* `PartySection.chain?`: the sections around one, from the inside outwards.
* `FeaturePolicy.Follows`: a policy is that of a chain of sections.
* `PartySection.Declares`: a party is declared in a section, with the policy of its chain.

## Main results

* `FeaturePolicy.isAllowed_eq`: the answer of a policy is its mention, or that of the level above.
* `governed_section`: the induction over sections.
* `governed_root`, `governed_increment`: whole trees, and additions.
-/

namespace PartyGraph

/-- What a section says of a feature, if it mentions it: whether it is allowed. -/
def PartySection.mention? (s : PartySection) (feature : String) : Option Bool :=
  if Text.lowercase feature ∈ s.allow.flatMap NameSet.namesOf then some true
  else if Text.lowercase feature ∈ s.disallow.flatMap NameSet.namesOf then some false
  else none

/-- What the first section of a chain says that mentions the feature. -/
def nearestMention (feature : String) (chain : List PartySection) : Option Bool :=
  chain.findSome? (·.mention? feature)

/-- The sections from the one at the end of a path of numbers out to the section itself. -/
def PartySection.chain? : PartySection → List Nat → Option (List PartySection)
  | s, [] => some [s]
  | s, i :: rest => (s.parties[i]?).bind fun child => (child.chain? rest).map (· ++ [s])

namespace FeaturePolicy

/-- What a policy says of a feature, if it mentions it: whether it is allowed. -/
def mention? (policy : FeaturePolicy) (feature : String) : Option Bool :=
  if Text.lowercase feature ∈ policy.allowed then some true
  else if Text.lowercase feature ∈ policy.disallowed then some false
  else Option.none

/-- No feature is both allowed and disallowed. -/
def Disjoint (policy : FeaturePolicy) : Prop :=
  ∀ name, name ∈ policy.allowed → name ∉ policy.disallowed

/-- Whatever the policy `above` mentions, `policy` mentions. -/
def Inherits (policy above : FeaturePolicy) : Prop :=
  ∀ feature, policy.mention? feature = Option.none → above.mention? feature = Option.none

@[simp] theorem mention?_none (feature : String) : none.mention? feature = Option.none := by
  simp [mention?, none, NameSet.notMem_empty]

theorem Inherits.refl (policy : FeaturePolicy) : policy.Inherits policy := fun _ h => h

theorem Inherits.trans {p q r : FeaturePolicy} (h : p.Inherits q) (h' : q.Inherits r) :
    p.Inherits r :=
  fun feature hp => h' feature (h feature hp)

theorem contains_eq_decide (s : NameSet) (x : String) : s.contains x = decide (x ∈ s) := by
  rw [Bool.eq_iff_iff, NameSet.contains_iff, decide_eq_true_iff]

/-- What a policy does not mention is left to the level above. -/
theorem isAllowed_of_mention?_eq_none {policy : FeaturePolicy} {feature : String}
    (h : policy.mention? feature = Option.none) (above : Bool) :
    policy.isAllowed feature above = above := by
  rw [mention?] at h
  split at h
  · cases h
  · next ha =>
    split at h
    · cases h
    · next hd => cases above <;> simp [isAllowed, contains_eq_decide, ha, hd]

/-- The answer of a policy is its mention of the feature, or else that of the level above. -/
theorem isAllowed_eq {policy : FeaturePolicy} (h : policy.Disjoint) (feature : String)
    (above : Bool) : policy.isAllowed feature above = (policy.mention? feature).getD above := by
  cases hm : policy.mention? feature with
  | none => exact isAllowed_of_mention?_eq_none hm above
  | some b =>
    rw [isAllowed, contains_eq_decide, contains_eq_decide]
    rw [mention?] at hm
    split at hm
    · next ha =>
      cases hm
      cases above <;> simp [ha, h _ ha]
    · next ha =>
      split at hm
      · next hd =>
        cases hm
        cases above <;> simp [ha, hd]
      · cases hm

/-- A policy is that of a chain of sections, of which the last inherits from the policy `above`. -/
structure Follows (policy : FeaturePolicy) (chain : List PartySection) (above : FeaturePolicy) :
    Prop where
  disjoint : policy.Disjoint
  mention : ∀ feature, policy.mention? feature =
    (nearestMention feature chain).or (above.mention? feature)

namespace Follows

variable {p q r : FeaturePolicy} {chain chain' : List PartySection}

theorem trans (h : p.Follows chain q) (h' : q.Follows chain' r) :
    p.Follows (chain ++ chain') r where
  disjoint := h.disjoint
  mention feature := by
    rw [h.mention, h'.mention, nearestMention, nearestMention, nearestMention,
      List.findSome?_append, Option.or_assoc]

theorem inherits (h : p.Follows chain q) : p.Inherits q := fun feature hp => by
  rw [h.mention, Option.or_eq_none_iff] at hp
  exact hp.2

/-- The whole chain decides when nothing is above it. -/
theorem isAllowed (h : p.Follows chain none) (feature : String) (above : Bool) :
    p.isAllowed feature above = (nearestMention feature chain).getD above := by
  rw [isAllowed_eq h.disjoint, h.mention, mention?_none, Option.or_none]

end Follows

/-- Own entries come before what is inherited. -/
theorem follows_of_inherit {s : PartySection} {parent policy : FeaturePolicy}
    (h : inherit parent s.allow s.disallow = .ok policy) : policy.Follows [s] parent := by
  have hmerge : parent.Merges ⟨s.allow, s.disallow⟩ policy := inherit_eq_ok h
  constructor
  · exact fun name => hmerge.disjoint
  · intro feature
    have hnear : nearestMention feature [s] = s.mention? feature := by
      simp [nearestMention]
    rw [hnear, mention?, mention?, PartySection.mention?]
    simp only [hmerge.disallowed, hmerge.allowed, PolicyLevel.allows, PolicyLevel.disallows]
    by_cases ha : Text.lowercase feature ∈ s.allow.flatMap NameSet.namesOf
    · simp [ha]
    · by_cases hd : Text.lowercase feature ∈ s.disallow.flatMap NameSet.namesOf
      · simp [ha, hd]
      · by_cases hp : Text.lowercase feature ∈ parent.allowed
        · simp [ha, hd, hp]
        · simp [ha, hd, hp]

end FeaturePolicy

theorem PartySection.follows {s : PartySection} {path : SectionPath} {above policy : FeaturePolicy}
    (h : s.policy path above = .ok policy) : policy.Follows [s] above := by
  rw [PartySection.policy] at h
  split at h
  · next hinherit =>
    cases h
    exact FeaturePolicy.follows_of_inherit hinherit
  · cases h

/-! ### Declarations -/

/-- Whether a party is declared in a section that stands at a path, or is the party of the section
itself, with the policy of the chain of sections in between. -/
def PartySection.Declares (s : PartySection) (path : SectionPath) (above : FeaturePolicy)
    (c : PartyConfiguration) : Prop :=
  ∃ indices chain, c.path = ⟨path.origin, path.indices ++ indices⟩ ∧
    s.chain? indices = some chain ∧ c.policy.Follows chain above

namespace PartySection.Declares

variable {s child : PartySection} {path : SectionPath} {above inner : FeaturePolicy}
  {c : PartyConfiguration}

/-- The party of the section itself. -/
theorem own (hpath : c.path = path) (h : c.policy.Follows [s] above) :
    s.Declares path above c :=
  ⟨[], [s], by simp [hpath], rfl, h⟩

/-- A party of one of the sections in it. -/
theorem ofChild {i : Nat} (hi : s.parties[i]? = some child)
    (h : child.Declares (path.child i) inner c) (hinner : inner.Follows [s] above) :
    s.Declares path above c := by
  obtain ⟨indices, chain, hpath, hchain, hfollows⟩ := h
  refine ⟨i :: indices, chain ++ [s], ?_, ?_, hfollows.trans hinner⟩
  · simp [hpath, SectionPath.child]
  · simp [chain?, hi, hchain]

theorem inherits (h : s.Declares path above c) : c.policy.Inherits above := by
  obtain ⟨_, _, _, _, hfollows⟩ := h
  exact hfollows.inherits

end PartySection.Declares

/-- Whether all parties are declared as they should, and those of a tenant domain within it. -/
structure Parties.Governed (ps : Parties) (declares : PartyConfiguration → Prop) : Prop where
  remotes : ∀ c ∈ ps.remotes, declares c
  tenants : ∀ t ∈ ps.tenants, declares t.party ∧
    ∀ c ∈ t.remotes, declares c ∧ c.policy.Inherits t.party.policy

namespace Parties.Governed

variable {ps qs : Parties} {declares declares' : PartyConfiguration → Prop}

theorem none : Parties.none.Governed declares :=
  ⟨fun _ h => absurd h List.not_mem_nil, fun _ h => absurd h List.not_mem_nil⟩

theorem append (h : ps.Governed declares) (h' : qs.Governed declares) :
    (ps ++ qs).Governed declares where
  remotes c hc := (List.mem_append.mp hc).elim (h.remotes c) (h'.remotes c)
  tenants t ht := (List.mem_append.mp ht).elim (h.tenants t) (h'.tenants t)

theorem remote {c : PartyConfiguration} (h : declares c) : (Parties.remote c).Governed declares :=
  ⟨by simpa [Parties.remote] using h, by simp [Parties.remote]⟩

/-- The remote parties within a tenant domain become its own; the tenant domains stay theirs. -/
theorem tenant {c : PartyConfiguration} (hc : declares c) (h : ps.Governed declares)
    (inherits : ∀ r ∈ ps.remotes, r.policy.Inherits c.policy) :
    (Parties.tenant c ps).Governed declares where
  remotes := by simp [Parties.tenant]
  tenants t ht := by
    rcases List.mem_append.mp ht with ht | ht
    · exact h.tenants t ht
    · rw [List.mem_singleton.mp ht]
      exact ⟨hc, fun r hr => ⟨h.remotes r hr, inherits r hr⟩⟩

theorem imp (h : ps.Governed declares) (himp : ∀ c, declares c → declares' c) :
    ps.Governed declares' where
  remotes c hc := himp c (h.remotes c hc)
  tenants t ht := ⟨himp _ (h.tenants t ht).1, fun c hc =>
    ⟨himp c ((h.tenants t ht).2 c hc).1, ((h.tenants t ht).2 c hc).2⟩⟩

end Parties.Governed

/-- A party is declared in one of consecutive sections, of which the first has number `i` in the
section at a path. -/
def DeclaredAmong (ss : List PartySection) (path : SectionPath) (i : Nat) (above : FeaturePolicy)
    (c : PartyConfiguration) : Prop :=
  ∃ (j : Nat) (s : PartySection), ss[j]? = some s ∧ s.Declares (path.child (i + j)) above c

theorem DeclaredAmong.inherits {ss : List PartySection} {path : SectionPath} {i : Nat}
    {above : FeaturePolicy} {c : PartyConfiguration} (h : DeclaredAmong ss path i above c) :
    c.policy.Inherits above := by
  obtain ⟨j, child, -, hchild⟩ := h
  exact hchild.inherits

/-- What is declared in the sections within a section is declared in the section. -/
theorem DeclaredAmong.declares {s : PartySection} {path : SectionPath}
    {above inner : FeaturePolicy} {c : PartyConfiguration}
    (h : DeclaredAmong s.parties path 0 inner c) (hinner : inner.Follows [s] above) :
    s.Declares path above c := by
  obtain ⟨j, child, hj, hchild⟩ := h
  rw [Nat.zero_add] at hchild
  exact .ofChild hj hchild hinner

mutual

theorem governed_section (index : NameIndex) (scope : Scope) (path : SectionPath) :
    (s : PartySection) → {index' : NameIndex} → {ps : Parties} →
    resolveSection index scope path s = .ok (index', ps) →
    ps.Governed (s.Declares path scope.policy)
  | ⟨fullName, domainName, partyName, environmentName, address, allow, disallow, settings,
      parties⟩, index', ps, h => by
    have hres := resolves_of_eq_ok h
    clear h
    cases hres with
    | group _ hpolicy _ h =>
      have follows := PartySection.follows hpolicy
      exact (governed_sections index _ path 0 parties h).imp fun c hc => hc.declares follows
    | tenant _ hpolicy _ _ _ h =>
      have follows := PartySection.follows hpolicy
      have governed := governed_sections _ _ path 0 parties h
      exact .tenant (.own rfl follows) (governed.imp fun c hc => hc.declares follows)
        fun r hr => (governed.remotes r hr).inherits
    | remote _ hpolicy _ _ _ => exact .remote (.own rfl (PartySection.follows hpolicy))

theorem governed_sections (index : NameIndex) (scope : Scope) (path : SectionPath) (i : Nat) :
    (ss : List PartySection) → {index' : NameIndex} → {ps : Parties} →
    resolveSections index scope path i ss = .ok (index', ps) →
    ps.Governed (DeclaredAmong ss path i scope.policy)
  | [], index', ps, h => by
    rw [resolveSections] at h
    cases h
    exact .none
  | s :: rest, index', ps, h => by
    obtain ⟨index₁, first, others, hs, hrest, rfl⟩ := resolveSections_cons_eq_ok.mp h
    have first := governed_section index scope (path.child i) s hs
    have later := governed_sections index₁ scope path (i + 1) rest hrest
    refine (first.imp fun c hc => ⟨0, s, rfl, hc⟩).append (later.imp ?_)
    rintro c ⟨j, child, hj, hc⟩
    exact ⟨j + 1, child, hj, by rwa [Nat.add_right_comm] at hc⟩

end

theorem governed_increment {owner : PartyConfiguration} {s : PartySection} {ps : Parties}
    (h : resolveIncrement owner s = .ok ps) :
    ps.Governed (s.Declares SectionPath.increment owner.policy) := by
  obtain ⟨index, hs⟩ := resolveIncrement_eq_ok.mp h
  exact governed_section _ _ _ s hs

theorem governed_root {s : PartySection} {r : ResolvedRoot} (h : resolveRoot s = .ok r) :
    r.root.policy.Follows [s] FeaturePolicy.none ∧
      r.parties.Governed fun c => s.Declares SectionPath.root FeaturePolicy.none c ∧
        c.policy.Inherits r.root.policy := by
  obtain ⟨hroot, index, hs⟩ := resolveRoot_eq_ok.mp h
  obtain ⟨root, parties⟩ := r
  have follows : root.policy.Follows [s] FeaturePolicy.none := by
    rw [resolveRootParty] at hroot
    obtain ⟨names, -, hroot⟩ := Except.exists_of_bind_eq_ok hroot
    dsimp only at hroot
    split at hroot
    · cases hroot
    · obtain ⟨policy, hpolicy, hroot⟩ := Except.exists_of_bind_eq_ok hroot
      cases hroot
      exact PartySection.follows hpolicy
  have governed := governed_sections _ _ _ _ s.parties hs
  exact ⟨follows, governed.imp fun c hc => ⟨hc.declares follows, hc.inherits⟩⟩

end PartyGraph
