import Mathlib.Data.List.Induction
import PartyGraph.Feature.Policy

/-!
# Chains of policies

A policy is merged level by level: what a level lists comes before what it inherits, and a level
that contradicts itself is skipped. The merge is written with set operations on the two sets of the
policy above. Read from the outside, it says that the last mention decides: a name is allowed when
the last accepted level that lists it lists it among what it allows, and disallowed when it lists it
among what it disallows.

The set of disallowed names is computed from the set of allowed ones, after that has taken in the
own entries of the level and what is left of the one above. So the merge alone keeps the two sets
apart, whatever the policy above was, and with that what a level does to a name is one of three
things: it allows it, disallows it, or leaves it as it was.

## Main definitions

* `PolicyLevel`: the entries of one level, with `allows`, `disallows`, `Mentions`, `Conflicts`.
* `PolicyChain`: a policy and the levels accepted so far; `PolicyChain.of` for a list of levels.
* `PolicyLevel.IsLastMention`: the last of some levels that mentions a name.
* `FeaturePolicy.Merges`: what a level makes of the policy above.

## Main results

* `FeaturePolicy.inherit_eq_ok`, `FeaturePolicy.inherit_eq_error`: the two outcomes of a merge.
* `PolicyChain.Settled.extend`, `PolicyChain.settled_of`: one level, and a whole chain.
* `PolicyChain.byLastMention_of`: the last mention among the accepted levels decides.
-/

namespace PartyGraph

/-! ### Sets of names by their members -/

namespace NameSet

theorem mem_ofEntries {x : String} {entries : List String} :
    x ∈ ofEntries entries ↔ x ∈ entries.flatMap namesOf := mem_ofList

/-- Sets with the same members are equal, since their members stand in order. -/
theorem eq_of_mem_iff {s t : NameSet} (h : ∀ x, x ∈ s ↔ x ∈ t) : s = t := by
  obtain ⟨xs, hxs⟩ := s
  obtain ⟨ys, hys⟩ := t
  congr
  refine List.Perm.eq_of_pairwise (fun a b _ _ hab hba => ?_) hxs hys ?_
  · exact absurd hba (String.lt_asymm hab)
  · exact (List.perm_ext_iff_of_nodup (hxs.imp String.ne_of_lt) (hys.imp String.ne_of_lt)).2 h

theorem isEmpty_iff {s : NameSet} : s.isEmpty = true ↔ ∀ x, x ∉ s := by
  rw [isEmpty, List.isEmpty_iff, List.eq_nil_iff_forall_not_mem]
  rfl

end NameSet

/-! ### Levels -/

/-- One level of a chain: the entries for what it allows and for what it disallows. -/
structure PolicyLevel where
  allow : List String
  disallow : List String

namespace PolicyLevel

/-- The names that a level allows, as they are written in its entries. -/
def allows (l : PolicyLevel) : List String := l.allow.flatMap NameSet.namesOf

/-- The names that a level disallows. -/
def disallows (l : PolicyLevel) : List String := l.disallow.flatMap NameSet.namesOf

/-- A level lists a name. -/
def Mentions (l : PolicyLevel) (name : String) : Prop := name ∈ l.allows ∨ name ∈ l.disallows

/-- A level contradicts itself about a name. -/
def Conflicts (l : PolicyLevel) (name : String) : Prop := name ∈ l.allows ∧ name ∈ l.disallows

/-- A level does not contradict itself. -/
def Consistent (l : PolicyLevel) : Prop := ∀ name ∈ l.allows, name ∉ l.disallows

instance (l : PolicyLevel) : Decidable l.Consistent :=
  inferInstanceAs (Decidable (∀ name ∈ l.allows, name ∉ l.disallows))

/-- A level is the last of some that mentions a name. -/
def IsLastMention (levels : List PolicyLevel) (name : String) (l : PolicyLevel) : Prop :=
  ∃ earlier later, levels = earlier ++ l :: later ∧ l.Mentions name ∧
    ∀ m ∈ later, ¬ m.Mentions name

variable {l m : PolicyLevel} {levels : List PolicyLevel} {name : String}

theorem consistent_iff : l.Consistent ↔ ∀ name, ¬ l.Conflicts name := by
  simp only [Consistent, Conflicts, not_and]

theorem not_consistent_iff : ¬ l.Consistent ↔ ∃ name, l.Conflicts name := by
  rw [consistent_iff, Classical.not_forall_not]

theorem Conflicts.mentions (h : l.Conflicts name) : l.Mentions name := .inl h.1

theorem not_isLastMention_nil : ¬ IsLastMention [] name l := by
  rintro ⟨earlier, later, h, -⟩
  cases earlier <;> cases h

/-- A level at the end comes first if it mentions the name, and does not count otherwise. -/
theorem isLastMention_concat : IsLastMention (levels ++ [m]) name l ↔
    m.Mentions name ∧ l = m ∨ ¬ m.Mentions name ∧ IsLastMention levels name l := by
  constructor
  · rintro ⟨earlier, later, h, hl, hlater⟩
    rcases List.eq_nil_or_concat later with rfl | ⟨later, last, rfl⟩
    · obtain ⟨rfl, hm⟩ := List.append_inj' h rfl
      cases hm
      exact .inl ⟨hl, rfl⟩
    · rw [List.concat_eq_append, ← List.cons_append, ← List.append_assoc] at h
      rw [List.concat_eq_append] at hlater
      obtain ⟨rfl, hm⟩ := List.append_inj' h rfl
      cases hm
      exact .inr ⟨hlater m (by simp), earlier, later, rfl, hl, fun k hk => hlater k (by simp [hk])⟩
  · rintro (⟨hm, rfl⟩ | ⟨hm, earlier, later, rfl, hl, hlater⟩)
    · exact ⟨levels, [], rfl, hm, by simp⟩
    · refine ⟨earlier, later ++ [m], by simp, hl, fun k hk => ?_⟩
      rcases List.mem_append.mp hk with hk | hk
      · exact hlater k hk
      · exact List.mem_singleton.mp hk ▸ hm

end PolicyLevel

/-! ### One merge -/

namespace FeaturePolicy

/-- What a level without contradictions makes of the policy above it. -/
structure Merges (above : FeaturePolicy) (l : PolicyLevel) (policy : FeaturePolicy) : Prop where
  consistent : l.Consistent
  allowed : ∀ name, name ∈ policy.allowed ↔
    name ∈ l.allows ∨ name ∈ above.allowed ∧ name ∉ l.disallows
  disallowed : ∀ name, name ∈ policy.disallowed ↔
    name ∈ l.disallows ∨ name ∈ above.disallowed ∧ name ∉ policy.allowed

variable {above policy : FeaturePolicy} {l : PolicyLevel} {names : List String} {name : String}

theorem eq_of_mem_iff (ha : ∀ name, name ∈ policy.allowed ↔ name ∈ above.allowed)
    (hd : ∀ name, name ∈ policy.disallowed ↔ name ∈ above.disallowed) : policy = above := by
  cases policy
  cases above
  exact congr (congrArg mk (NameSet.eq_of_mem_iff ha)) (NameSet.eq_of_mem_iff hd)

theorem inherit_eq_ok (h : above.inherit l.allow l.disallow = .ok policy) :
    above.Merges l policy := by
  rw [inherit] at h
  dsimp only at h
  split at h
  · next hempty =>
    cases h
    constructor
    case consistent =>
      intro name ha hd
      refine NameSet.isEmpty_iff.mp hempty name (NameSet.mem_inter.mpr ?_)
      exact ⟨NameSet.mem_ofEntries.mpr ha, NameSet.mem_ofEntries.mpr hd⟩
    case allowed =>
      intro name
      rw [NameSet.mem_union, NameSet.mem_diff, NameSet.mem_ofEntries, NameSet.mem_ofEntries]
      rfl
    case disallowed =>
      intro name
      rw [NameSet.mem_union, NameSet.mem_diff, NameSet.mem_ofEntries]
      rfl
  · cases h

/-- What a rejected level is told: the names that it contradicts itself about, in order. -/
theorem inherit_eq_error (h : above.inherit l.allow l.disallow = .error names) :
    names ≠ [] ∧ names.Pairwise (· < ·) ∧ ∀ name, name ∈ names ↔ l.Conflicts name := by
  rw [inherit] at h
  dsimp only at h
  split at h
  · cases h
  · next hempty =>
    cases h
    refine ⟨fun hnil => hempty (List.isEmpty_iff.mpr hnil), NameSet.ascending _, fun name => ?_⟩
    rw [← NameSet.mem_def, NameSet.mem_inter, NameSet.mem_ofEntries, NameSet.mem_ofEntries]
    rfl

namespace Merges

/-- The merge alone keeps the two sets apart. -/
theorem disjoint (h : above.Merges l policy) (ha : name ∈ policy.allowed) :
    name ∉ policy.disallowed := by
  intro hdisallowed
  rcases (h.disallowed name).mp hdisallowed with hd | ⟨-, hnot⟩
  · rcases (h.allowed name).mp ha with hown | ⟨-, hnot⟩
    · exact h.consistent name hown hd
    · exact hnot hd
  · exact hnot ha

/-- What a level does not mention is allowed as it was. -/
theorem allowed_of_not_mentions (h : above.Merges l policy) (hname : ¬ l.Mentions name) :
    name ∈ policy.allowed ↔ name ∈ above.allowed := by
  obtain ⟨ha, hd⟩ := not_or.mp hname
  rw [h.allowed]
  simp only [ha, hd, false_or, not_false_eq_true, and_true]

/-- What a level does not mention is disallowed as it was, if the policy above kept its sets
apart. -/
theorem disallowed_of_not_mentions (h : above.Merges l policy) (hname : ¬ l.Mentions name)
    (hdisjoint : name ∈ above.allowed → name ∉ above.disallowed) :
    name ∈ policy.disallowed ↔ name ∈ above.disallowed := by
  rw [h.disallowed, h.allowed_of_not_mentions hname]
  obtain ⟨-, hd⟩ := not_or.mp hname
  simp only [hd, false_or, and_iff_left_iff_imp]
  exact fun habove hallowed => hdisjoint hallowed habove

/-- What a level mentions is allowed exactly when it is listed there. -/
theorem allowed_of_mentions (h : above.Merges l policy) (hname : l.Mentions name) :
    name ∈ policy.allowed ↔ name ∈ l.allows := by
  rw [h.allowed]
  refine ⟨?_, .inl⟩
  rintro (ha | ⟨-, hd⟩)
  · exact ha
  · exact hname.resolve_right hd

/-- What a level mentions is disallowed exactly when it is listed there. -/
theorem disallowed_of_mentions (h : above.Merges l policy) (hname : l.Mentions name) :
    name ∈ policy.disallowed ↔ name ∈ l.disallows := by
  rw [h.disallowed, h.allowed_of_mentions hname]
  refine ⟨?_, .inl⟩
  rintro (hd | ⟨-, ha⟩)
  · exact hd
  · exact hname.resolve_left ha

end Merges

/-- A level is rejected for what it lists itself. -/
theorem exists_inherit_eq_error_iff :
    (∃ names, above.inherit l.allow l.disallow = .error names) ↔ ∃ name, l.Conflicts name := by
  cases h : above.inherit l.allow l.disallow with
  | ok policy =>
    have hconsistent := PolicyLevel.consistent_iff.mp (inherit_eq_ok h).consistent
    simpa using hconsistent
  | error names =>
    obtain ⟨hne, -, hmem⟩ := inherit_eq_error h
    obtain ⟨name, hname⟩ := List.exists_mem_of_ne_nil names hne
    exact ⟨fun _ => ⟨name, (hmem name).mp hname⟩, fun _ => ⟨names, rfl⟩⟩

/-- A level that lists nothing changes nothing. -/
theorem inherit_of_not_mentions (hl : ∀ name, ¬ l.Mentions name)
    (hdisjoint : ∀ name, name ∈ above.allowed → name ∉ above.disallowed) :
    above.inherit l.allow l.disallow = .ok above := by
  cases h : above.inherit l.allow l.disallow with
  | ok policy =>
    have hmerge := inherit_eq_ok h
    have hsame : policy = above := eq_of_mem_iff
      (fun name => hmerge.allowed_of_not_mentions (hl name))
      (fun name => hmerge.disallowed_of_not_mentions (hl name) (hdisjoint name))
    rw [hsame]
  | error names =>
    obtain ⟨name, hname⟩ := exists_inherit_eq_error_iff.mp ⟨names, h⟩
    exact absurd hname.mentions (hl name)

end FeaturePolicy

/-! ### Chains -/

/-- A policy, with the levels from which it was merged. -/
structure PolicyChain where
  policy : FeaturePolicy
  accepted : List PolicyLevel

namespace PolicyChain

/-- The chain before any level. -/
def empty : PolicyChain := ⟨.none, []⟩

/-- A chain with one more level, or as it was if the level is rejected. -/
def extend (c : PolicyChain) (l : PolicyLevel) : PolicyChain :=
  match c.policy.inherit l.allow l.disallow with
  | .ok policy => ⟨policy, c.accepted ++ [l]⟩
  | .error _ => c

/-- The chain of some levels, the first one at the top. -/
def of (levels : List PolicyLevel) : PolicyChain := levels.foldl extend empty

/-- The policy of a chain is what the last mention of every name among its levels says. -/
structure Settled (c : PolicyChain) : Prop where
  allowed : ∀ name, name ∈ c.policy.allowed ↔
    ∃ l, PolicyLevel.IsLastMention c.accepted name l ∧ name ∈ l.allows
  disallowed : ∀ name, name ∈ c.policy.disallowed ↔
    ∃ l, PolicyLevel.IsLastMention c.accepted name l ∧ name ∈ l.disallows
  disjoint : ∀ name, name ∈ c.policy.allowed → name ∉ c.policy.disallowed

variable {c : PolicyChain} {l : PolicyLevel} {levels : List PolicyLevel}

theorem of_concat : of (levels ++ [l]) = (of levels).extend l := by
  rw [of, List.foldl_append]
  rfl

theorem settled_empty : empty.Settled where
  allowed name := by
    simp [empty, FeaturePolicy.none, NameSet.notMem_empty, PolicyLevel.not_isLastMention_nil]
  disallowed name := by
    simp [empty, FeaturePolicy.none, NameSet.notMem_empty, PolicyLevel.not_isLastMention_nil]
  disjoint name h := absurd h (NameSet.notMem_empty name)

/-- One level keeps a chain settled. -/
theorem Settled.extend (h : c.Settled) (l : PolicyLevel) : (c.extend l).Settled := by
  rw [PolicyChain.extend]
  split
  · next policy hinherit =>
    have hmerge := FeaturePolicy.inherit_eq_ok hinherit
    constructor
    case allowed =>
      intro name
      by_cases hname : l.Mentions name
      · simp [PolicyLevel.isLastMention_concat, hname, hmerge.allowed_of_mentions]
      · simp only [PolicyLevel.isLastMention_concat, hname, false_and, not_false_eq_true, true_and,
          false_or]
        rw [hmerge.allowed_of_not_mentions hname, h.allowed]
    case disallowed =>
      intro name
      by_cases hname : l.Mentions name
      · simp [PolicyLevel.isLastMention_concat, hname, hmerge.disallowed_of_mentions]
      · simp only [PolicyLevel.isLastMention_concat, hname, false_and, not_false_eq_true, true_and,
          false_or]
        rw [hmerge.disallowed_of_not_mentions hname (h.disjoint name), h.disallowed]
    case disjoint => exact fun name => hmerge.disjoint
  · exact h

theorem accepted_extend (c : PolicyChain) (l : PolicyLevel) :
    (c.extend l).accepted = c.accepted ++ [l].filter fun l => l.Consistent := by
  rw [extend]
  split
  · next policy hinherit =>
    have hl := (FeaturePolicy.inherit_eq_ok hinherit).consistent
    simp [hl]
  · next names hinherit =>
    have hl := PolicyLevel.not_consistent_iff.mpr
      (FeaturePolicy.exists_inherit_eq_error_iff.mp ⟨names, hinherit⟩)
    simp [hl]

theorem accepted_of (levels : List PolicyLevel) :
    (of levels).accepted = levels.filter fun l => l.Consistent := by
  induction levels using List.reverseRecOn with
  | nil => rfl
  | append_singleton levels l ih =>
    rw [of_concat, accepted_extend, ih, List.filter_append]

/-- A whole chain is settled. -/
theorem settled_of (levels : List PolicyLevel) : (of levels).Settled := by
  induction levels using List.reverseRecOn with
  | nil => exact settled_empty
  | append_singleton levels l ih =>
    rw [of_concat]
    exact ih.extend l

/-- The last mention among the accepted levels decides, and which levels are accepted depends on
what they list themselves. -/
structure ByLastMention (c : PolicyChain) (levels : List PolicyLevel) : Prop extends
    c.Settled where
  /-- The accepted levels are those that do not contradict themselves. -/
  accepted : c.accepted = levels.filter fun l => l.Consistent
  /-- A level that lists nothing changes nothing. -/
  unchanged : ∀ l : PolicyLevel, (∀ name, ¬ l.Mentions name) →
    c.policy.inherit l.allow l.disallow = .ok c.policy
  /-- A level is rejected exactly when it contradicts itself. -/
  rejected : ∀ l : PolicyLevel,
    (∃ names, c.policy.inherit l.allow l.disallow = .error names) ↔ ∃ name, l.Conflicts name
  /-- It is told exactly the names that it contradicts itself about, in order. -/
  told : ∀ (l : PolicyLevel) (names : List String),
    c.policy.inherit l.allow l.disallow = .error names →
      names.Pairwise (· < ·) ∧ ∀ name, name ∈ names ↔ l.Conflicts name

/-- **The last mention decides.** Whatever the levels of a chain list, a name is allowed exactly
when the last accepted level that lists it lists it among what it allows, and disallowed exactly
when that level lists it among what it disallows, so never both; a level that lists nothing leaves
the policy as it is; and a level is rejected, whatever is above it, exactly when it lists some name
on both sides, with all such names in order as the error. -/
theorem byLastMention_of (levels : List PolicyLevel) : (of levels).ByLastMention levels := by
  have hsettled := settled_of levels
  constructor
  case toSettled => exact hsettled
  case accepted => exact accepted_of levels
  case unchanged => exact fun l hl => FeaturePolicy.inherit_of_not_mentions hl hsettled.disjoint
  case rejected => exact fun l => FeaturePolicy.exists_inherit_eq_error_iff
  case told => exact fun l names h => (FeaturePolicy.inherit_eq_error h).2

example :
    (of [⟨["Sign, crypt"], []⟩, ⟨[], ["SIGN"]⟩, ⟨["sign"], ["sign"]⟩]).policy.allowed.names =
      ["crypt"] := by
  decide +kernel

end PolicyChain

end PartyGraph
