import PartyGraph.Proofs.Section.Relocation

/-!
# Trees and additions resolve alike

A party is declared in the tree that an identity is resolved from, or added later below a party of
that tree. The tree is resolved in one go, from scopes that pass down and with one index of names;
an addition starts from the scope that its owner's configuration gives, with an empty index. The
two come to the same (`resolutionsAgree`): a tree is its root with each child added to it, and a
tenant domain holds what its children are when each is added to it.

Which parties of a tree a child contributes is read off their paths: those at or below the path of
the child. For the child of a tenant domain these are among the remote parties of that domain and
the tenant domains of the whole tree, since tenant domains within others stand beside them.

## Main definitions

* `PartySection.at?`: the section at a place of a tree.
* `Parties.declaredAt`: the parties declared at or below a path.
* `TenantConfiguration.Agrees`: a tenant domain holds what its children are as additions.

## Main results

* `resolveRoot_iff`: a tree is its root with each child added to it.
* `agree_section`: the induction over sections for tenant domains.
* `resolutionsAgree`: both.
-/

namespace PartyGraph

/-! ### Places -/

/-- The section at a place of a tree, given by the number of the child at each level. -/
def PartySection.at? (s : PartySection) : List Nat → Option PartySection
  | [] => some s
  | i :: is => s.parties[i]?.bind (·.at? is)

namespace SectionPath

/-- Whether a path is the base or lies below it. -/
def covers (base p : SectionPath) : Bool :=
  decide (p.origin = base.origin) && base.indices.isPrefixOf p.indices

theorem covers_eq_true {base p : SectionPath} :
    base.covers p = true ↔ ∃ is, p = ⟨base.origin, base.indices ++ is⟩ := by
  obtain ⟨origin, indices⟩ := p
  simp only [covers, Bool.and_eq_true, decide_eq_true_eq, List.isPrefixOf_iff_prefix, mk.injEq]
  constructor
  · rintro ⟨ho, is, hi⟩
    exact ⟨is, ho, hi.symm⟩
  · rintro ⟨is, ho, hi⟩
    exact ⟨ho, is, hi.symm⟩

theorem covers_under (base p : SectionPath) : base.covers (base.under p) = true :=
  covers_eq_true.mpr ⟨p.indices, rfl⟩

theorem covers_refl (p : SectionPath) : p.covers p = true := covers_eq_true.mpr ⟨[], by simp⟩

theorem covers_trans {base p q : SectionPath} (h : base.covers p = true) (h' : p.covers q = true) :
    base.covers q = true := by
  obtain ⟨is, rfl⟩ := covers_eq_true.mp h
  obtain ⟨is', rfl⟩ := covers_eq_true.mp h'
  exact covers_eq_true.mpr ⟨is ++ is', by rw [List.append_assoc]⟩

/-- Places are not around each other. -/
theorem covers_antisymm {p q : SectionPath} (h : p.covers q = true) (h' : q.covers p = true) :
    p = q := by
  obtain ⟨is, rfl⟩ := covers_eq_true.mp h
  obtain ⟨js, hjs⟩ := covers_eq_true.mp h'
  have hlength := congrArg (fun q : SectionPath => q.indices.length) hjs
  simp only [List.length_append] at hlength
  obtain rfl : is = [] := List.eq_nil_of_length_eq_zero (by omega)
  rw [List.append_nil]

theorem covers_of_covers_child {base p : SectionPath} {i : Nat}
    (h : (base.child i).covers p = true) : base.covers p = true :=
  covers_trans (covers_eq_true.mpr ⟨[i], rfl⟩) h

/-- A path lies below one child at most. -/
theorem eq_of_covers_child {base p : SectionPath} {i j : Nat} (hi : (base.child i).covers p = true)
    (hj : (base.child j).covers p = true) : i = j := by
  obtain ⟨is, rfl⟩ := covers_eq_true.mp hi
  obtain ⟨js, hjs⟩ := covers_eq_true.mp hj
  simp only [child, mk.injEq, true_and, List.append_assoc, List.singleton_append,
    List.append_cancel_left_eq, List.cons.injEq] at hjs
  exact hjs.1

/-- A path does not lie below its children. -/
theorem not_covers_child {base p : SectionPath} (h : base.covers p = true) (i : Nat) :
    (p.child i).covers base = false := by
  refine Bool.eq_false_iff.mpr fun hc => ?_
  have heq := covers_antisymm (covers_trans hc h) (covers_of_covers_child (covers_refl _))
  have hlength := congrArg (fun q : SectionPath => q.indices.length) heq
  simp [child] at hlength

end SectionPath

/-! ### Parties by their places -/

namespace Parties

/-- The places of remote parties and of tenant domains. -/
def paths (ps : Parties) : List SectionPath :=
  ps.remotes.map (·.path) ++ ps.tenants.map (·.party.path)

/-- The parties declared at a path or below it. -/
def declaredAt (base : SectionPath) (ps : Parties) : Parties :=
  ⟨ps.remotes.filter (base.covers ·.path), ps.tenants.filter (base.covers ·.party.path)⟩

@[simp] theorem append_none (ps : Parties) : ps ++ none = ps := by
  ext1 <;> simp [none]

@[simp] theorem none_append (ps : Parties) : none ++ ps = ps := by
  ext1 <;> simp [none]

theorem declaredAt_append (base : SectionPath) (a b : Parties) :
    (a ++ b).declaredAt base = a.declaredAt base ++ b.declaredAt base := by
  ext1 <;> simp [declaredAt]

theorem declaredAt_eq_self {base : SectionPath} {ps : Parties}
    (h : ∀ q ∈ ps.paths, base.covers q = true) : ps.declaredAt base = ps := by
  ext1
  · exact List.filter_eq_self.mpr fun c hc =>
      h _ (List.mem_append_left _ (List.mem_map_of_mem hc))
  · exact List.filter_eq_self.mpr fun t ht =>
      h _ (List.mem_append_right _ (List.mem_map.mpr ⟨t, ht, rfl⟩))

theorem declaredAt_eq_none {base : SectionPath} {ps : Parties}
    (h : ∀ q ∈ ps.paths, base.covers q = false) : ps.declaredAt base = none := by
  ext1
  · exact List.filter_eq_nil_iff.mpr fun c hc => by
      rw [h _ (List.mem_append_left _ (List.mem_map_of_mem hc))]
      exact Bool.false_ne_true
  · exact List.filter_eq_nil_iff.mpr fun t ht => by
      rw [h _ (List.mem_append_right _ (List.mem_map.mpr ⟨t, ht, rfl⟩))]
      exact Bool.false_ne_true

theorem covers_of_mem_paths_under {base q : SectionPath} {ps : Parties}
    (h : q ∈ (ps.under base).paths) : base.covers q = true := by
  simp only [paths, under, List.map_map, List.mem_append, List.mem_map, Function.comp_def] at h
  obtain ⟨c, -, rfl⟩ | ⟨t, -, rfl⟩ := h
  · exact SectionPath.covers_under base c.path
  · exact SectionPath.covers_under base t.party.path

theorem mem_paths_append {q : SectionPath} {a b : Parties} :
    q ∈ (a ++ b).paths ↔ q ∈ a.paths ∨ q ∈ b.paths := by
  simp only [paths, remotes_append, tenants_append, List.map_append, List.mem_append]
  constructor
  · rintro ((h | h) | (h | h)) <;> simp [h]
  · rintro ((h | h) | (h | h)) <;> simp [h]

theorem exists_covers_of_mem_paths_gathered {p q : SectionPath} {i : Nat} {pss : List Parties}
    (h : q ∈ (gathered p i pss).paths) : ∃ k, i ≤ k ∧ (p.child k).covers q = true := by
  induction pss generalizing i with
  | nil => cases h
  | cons ps rest ih =>
    rcases mem_paths_append.mp h with h | h
    · exact ⟨i, Nat.le_refl i, covers_of_mem_paths_under h⟩
    · obtain ⟨k, hk, hq⟩ := ih h
      exact ⟨k, by omega, hq⟩

/-- What children contribute together is what each contributes, by its place. -/
theorem declaredAt_gathered {p : SectionPath} {i j : Nat} {pss : List Parties} {ps : Parties}
    (h : pss[j]? = some ps) :
    (gathered p i pss).declaredAt (p.child (i + j)) = ps.under (p.child (i + j)) := by
  induction pss generalizing i j with
  | nil => cases h
  | cons first rest ih =>
    rw [gathered, declaredAt_append]
    cases j with
    | zero =>
      obtain rfl : first = ps := Option.some.inj h
      have hrest : (gathered p (i + 1) rest).declaredAt (p.child i) = none := by
        refine declaredAt_eq_none fun q hq => Bool.eq_false_iff.mpr fun hc => ?_
        obtain ⟨k, hk, hcovers⟩ := exists_covers_of_mem_paths_gathered hq
        have := SectionPath.eq_of_covers_child hc hcovers
        omega
      rw [Nat.add_zero, declaredAt_eq_self fun q hq => covers_of_mem_paths_under hq, hrest,
        append_none]
    | succ j =>
      have hfirst : (first.under (p.child i)).declaredAt (p.child (i + (j + 1))) = none := by
        refine declaredAt_eq_none fun q hq => Bool.eq_false_iff.mpr fun hc => ?_
        have := SectionPath.eq_of_covers_child hc (covers_of_mem_paths_under hq)
        omega
      rw [hfirst, none_append, show i + (j + 1) = i + 1 + j by omega]
      exact ih h

end Parties

/-! ### Whole trees -/

/-- **A tree is its root with each child added to it**, as long as no two names coincide. -/
theorem resolveRoot_iff {s : PartySection} {r : ResolvedRoot} :
    resolveRoot s = .ok r ↔ ∃ root increments,
      resolveRoot { s with parties := [] } = .ok ⟨root, Parties.none⟩ ∧
      List.Forall₂ (fun c ps => resolveIncrement root c = .ok ps) s.parties increments ∧
      (root.fullName.key :: increments.flatMap Parties.keys).Nodup ∧
      r = ⟨root, Parties.gathered .root 0 increments⟩ := by
  constructor
  · intro h
    obtain ⟨hroot, index, hs⟩ := resolveRoot_eq_ok.mp h
    obtain ⟨increments, halone, hparties⟩ := gathered_of_eq_ok hs (List.nodup_singleton _)
    refine ⟨r.root, increments, resolveRoot_eq_ok.mpr ⟨hroot, _, by rw [resolveSections]⟩,
      halone.imp fun _ _ => resolveIncrement_eq_ok.mpr, ?_, ?_⟩
    · have hnodup := resolveRoot_nodup h
      rw [hparties] at hnodup
      exact ((Parties.keys_gathered .root 0 increments).cons _).nodup_iff.mp hnodup
    · rw [← hparties]
  · rintro ⟨root, increments, hroot, hincrements, hnodup, rfl⟩
    obtain ⟨hroot, -⟩ := resolveRoot_eq_ok.mp hroot
    obtain ⟨hno, hrest⟩ := List.nodup_cons.mp hnodup
    refine resolveRoot_eq_ok.mpr ⟨hroot, eq_ok_of_gathered
      (hincrements.imp fun _ _ => resolveIncrement_eq_ok.mp) (fun k hk hk' => ?_) hrest .root 0⟩
    obtain rfl : k = root.fullName.key := List.mem_singleton.mp hk'
    exact hno hk

/-! ### Tenant domains -/

theorem exists_of_forall₂_getElem? {α β : Type} {R : α → β → Prop} {as : List α} {bs : List β}
    (h : List.Forall₂ R as bs) {i : Nat} {a : α} (ha : as[i]? = some a) :
    ∃ b, bs[i]? = some b ∧ R a b := by
  induction h generalizing i with
  | nil => cases ha
  | @cons x y _ _ hxy _ ih =>
    cases i with
    | zero =>
      obtain rfl : x = a := Option.some.inj ha
      exact ⟨y, rfl, hxy⟩
    | succ i => exact ih ha

/-- Whether a tenant domain holds what the children of its section are as additions to it: of its
remote parties and of all tenant domains, those declared at or below a child are the parties that
the child resolves to, at the place of the child. -/
def TenantConfiguration.Agrees (t : TenantConfiguration) (sec : PartySection)
    (tenants : List TenantConfiguration) : Prop :=
  ∀ i c, sec.parties[i]? = some c → ∃ ps, resolveIncrement t.party c = .ok ps ∧
    (⟨t.remotes, tenants⟩ : Parties).declaredAt (t.party.path.child i)
      = ps.under (t.party.path.child i)

/-- Whether each tenant domain of a tree agrees with the section that declares it. -/
def Parties.Agree (s : PartySection) (path : SectionPath) (ps : Parties) : Prop :=
  ∀ t ∈ ps.tenants, ∃ is sec, t.party.path = ⟨path.origin, path.indices ++ is⟩ ∧
    s.at? is = some sec ∧ t.Agrees sec ps.tenants

/-- The same of consecutive children, of which the first has number `i`. -/
def Parties.AgreeFrom (i : Nat) (ss : List PartySection) (path : SectionPath) (ps : Parties) :
    Prop :=
  ∀ t ∈ ps.tenants, ∃ j is sec, t.party.path = ⟨path.origin, path.indices ++ (i + j) :: is⟩ ∧
    ss[j]?.bind (·.at? is) = some sec ∧ t.Agrees sec ps.tenants

/-- Tenant domains declared elsewhere may be added. -/
theorem TenantConfiguration.Agrees.append {t : TenantConfiguration} {sec : PartySection}
    {tenants : List TenantConfiguration} (h : t.Agrees sec tenants)
    (before after : List TenantConfiguration)
    (hbefore : ∀ u ∈ before, ∀ i, (t.party.path.child i).covers u.party.path = false)
    (hafter : ∀ u ∈ after, ∀ i, (t.party.path.child i).covers u.party.path = false) :
    t.Agrees sec (before ++ tenants ++ after) := by
  intro i c hc
  obtain ⟨ps, hps, hdeclared⟩ := h i c hc
  refine ⟨ps, hps, ?_⟩
  rw [← hdeclared]
  have hnone : ∀ us : List TenantConfiguration,
      (∀ u ∈ us, ∀ i, (t.party.path.child i).covers u.party.path = false) →
      us.filter ((t.party.path.child i).covers ·.party.path) = [] := fun us hus =>
    List.filter_eq_nil_iff.mpr fun u hu => by simp [hus u hu i]
  simp [Parties.declaredAt, List.filter_append, hnone before hbefore, hnone after hafter]

/-- All places of a resolved section lie below it. -/
theorem covers_of_resolveSection {index index' : NameIndex} {scope : Scope} {path : SectionPath}
    {s : PartySection} {ps : Parties} (h : resolveSection index scope path s = .ok (index', ps))
    (hnodup : index.keys.Nodup) {q : SectionPath} (hq : q ∈ ps.paths) : path.covers q = true := by
  obtain ⟨alone, -, rfl⟩ := resolvesAlone_of_eq_ok h hnodup
  exact Parties.covers_of_mem_paths_under hq

theorem exists_covers_of_resolveSections {index index' : NameIndex} {scope : Scope}
    {path : SectionPath} {i : Nat} {ss : List PartySection} {ps : Parties}
    (h : resolveSections index scope path i ss = .ok (index', ps)) (hnodup : index.keys.Nodup)
    {q : SectionPath} (hq : q ∈ ps.paths) : ∃ k, i ≤ k ∧ (path.child k).covers q = true := by
  obtain ⟨alone, -, rfl⟩ := gathered_of_eq_ok h hnodup
  exact Parties.exists_covers_of_mem_paths_gathered hq

theorem Parties.mem_paths_of_mem_tenants {ps : Parties} {t : TenantConfiguration}
    (h : t ∈ ps.tenants) : t.party.path ∈ ps.paths :=
  List.mem_append_right _ (List.mem_map.mpr ⟨t, h, rfl⟩)

/-- What lies below one child does not lie below a place in another. -/
theorem SectionPath.not_covers_of_ne {base p q : SectionPath} {i j : Nat} (hne : i ≠ j)
    (hp : (base.child i).covers p = true) (hq : (base.child j).covers q = true) (k : Nat) :
    (p.child k).covers q = false := by
  refine Bool.eq_false_iff.mpr fun hc => hne ?_
  exact eq_of_covers_child (covers_trans hp (covers_of_covers_child hc)) hq

mutual

/-- **The tenant domains of a section agree with their sections.** -/
theorem agree_section (index : NameIndex) (scope : Scope) (path : SectionPath) :
    (s : PartySection) → {index' : NameIndex} → {ps : Parties} →
    resolveSection index scope path s = .ok (index', ps) → index.keys.Nodup →
    ps.Agree s path
  | ⟨fullName, domainName, partyName, environmentName, address, allow, disallow, settings,
      parties⟩, index', ps, h, hnodup => by
    have hres := resolves_of_eq_ok h
    clear h
    cases hres with
    | group hnames hpolicy hparty h =>
      intro t ht
      obtain ⟨j, is, sec, hpath, hat, hagrees⟩ :=
        agree_sections index _ path 0 parties h hnodup t ht
      rw [Nat.zero_add] at hpath
      exact ⟨j :: is, sec, hpath, hat, hagrees⟩
    | @tenant names policy party index₁ _ nested hnames hpolicy hparty henter hdomain h =>
      obtain ⟨hno, hkeys⟩ := NameIndex.enter_eq_ok henter
      have hnodup₁ : index₁.keys.Nodup := hkeys ▸ hnodup.cons hno
      intro t ht
      rcases List.mem_append.mp ht with ht | ht
      · obtain ⟨j, is, sec, hpath, hat, hagrees⟩ :=
          agree_sections index₁ _ path 0 parties h hnodup₁ t ht
        rw [Nat.zero_add] at hpath
        refine ⟨j :: is, sec, hpath, hat, ?_⟩
        refine hagrees.append [] _ (fun u hu => absurd hu List.not_mem_nil) ?_
        intro u hu i
        rw [List.mem_singleton.mp hu]
        exact SectionPath.not_covers_child (SectionPath.covers_eq_true.mpr ⟨_, hpath⟩) i
      · obtain rfl := List.mem_singleton.mp ht
        refine ⟨[], _, by rw [List.append_nil], rfl, fun i c hc => ?_⟩
        obtain ⟨alone, halone, rfl⟩ := gathered_of_eq_ok h hnodup₁
        obtain ⟨ps, hps, hresolves⟩ := exists_of_forall₂_getElem? halone hc
        refine ⟨ps, resolveIncrement_eq_ok.mpr hresolves, ?_⟩
        rw [← Nat.zero_add i, ← Parties.declaredAt_gathered hps, Nat.zero_add]
        have hnot : (path.child i).covers path = false :=
          SectionPath.not_covers_child (SectionPath.covers_eq_true.mpr ⟨[], by simp⟩) i
        simp [Parties.declaredAt, Parties.tenant, List.filter_append, hnot]
    | @remote names policy party _ hnames hpolicy hparty henter hdomain =>
      exact fun t ht => absurd ht List.not_mem_nil

theorem agree_sections (index : NameIndex) (scope : Scope) (path : SectionPath) (i : Nat) :
    (ss : List PartySection) → {index' : NameIndex} → {ps : Parties} →
    resolveSections index scope path i ss = .ok (index', ps) → index.keys.Nodup →
    ps.AgreeFrom i ss path
  | [], index', ps, h, hnodup => by
    rw [resolveSections] at h
    cases h
    exact fun t ht => absurd ht List.not_mem_nil
  | s :: rest, index', ps, h, hnodup => by
    obtain ⟨index₁, first, others, hs, hrest, rfl⟩ := resolveSections_cons_eq_ok.mp h
    have hnodup₁ := (resolved_section index scope (path.child i) s hs).nodup hnodup
    have hfirst : ∀ {q}, q ∈ first.paths → (path.child i).covers q = true := fun hq =>
      covers_of_resolveSection hs hnodup hq
    have hothers : ∀ {q}, q ∈ others.paths → ∃ k, i ≠ k ∧ (path.child k).covers q = true := by
      intro q hq
      obtain ⟨k, hk, hcovers⟩ := exists_covers_of_resolveSections hrest hnodup₁ hq
      exact ⟨k, by omega, hcovers⟩
    intro t ht
    rcases List.mem_append.mp ht with ht | ht
    · obtain ⟨is, sec, hpath, hat, hagrees⟩ :=
        agree_section index scope (path.child i) s hs hnodup t ht
      refine ⟨0, is, sec, ?_, hat, ?_⟩
      · simpa [SectionPath.child] using hpath
      · refine hagrees.append [] _ (fun u hu => absurd hu List.not_mem_nil) ?_
        intro u hu
        obtain ⟨k, hne, hk⟩ := hothers (Parties.mem_paths_of_mem_tenants hu)
        exact SectionPath.not_covers_of_ne hne (hfirst (Parties.mem_paths_of_mem_tenants ht)) hk
    · obtain ⟨j, is, sec, hpath, hat, hagrees⟩ :=
        agree_sections index₁ scope path (i + 1) rest hrest hnodup₁ t ht
      refine ⟨j + 1, is, sec, ?_, hat, ?_⟩
      · rw [hpath, show i + 1 + j = i + (j + 1) by omega]
      · obtain ⟨k, hne, hk⟩ := hothers (Parties.mem_paths_of_mem_tenants ht)
        have := hagrees.append first.tenants [] (fun u hu =>
            SectionPath.not_covers_of_ne hne.symm hk (hfirst (Parties.mem_paths_of_mem_tenants hu)))
          (fun u hu => absurd hu List.not_mem_nil)
        rwa [List.append_nil] at this

end

/-! ### Both -/

/-- The place of a party that was added reads like its place in a tree, but for the beginning. -/
theorem text_under_root_child (i : Nat) {p : SectionPath} (h : p.origin = .increment) :
    p.text = "increment" ++ p.tail ∧
      ((SectionPath.root.child i).under p).text
        = "root.parties[" ++ toString i ++ "]" ++ p.tail := by
  refine ⟨SectionPath.text_increment h, ?_⟩
  rw [SectionPath.text_under]
  simp [SectionPath.text, SectionPath.root, SectionPath.child, ← String.append_assoc]

/-- **Trees and additions resolve alike.** A section resolves to a tree exactly if it does without
its children, each child resolves as an addition to that root, and the names of all are distinct
when lower-cased; the tree is then that root with the parties of the additions in the order of the
children, each party at the place of its child (`Parties.under` changes nothing but paths, and
their texts in the beginning only). And in whatever resolves, the children of the section of a
tenant domain contribute what they resolve to as additions to that tenant domain. -/
theorem resolutionsAgree :
    (∀ (s : PartySection) (r : ResolvedRoot), resolveRoot s = .ok r ↔ ∃ root increments,
      resolveRoot { s with parties := [] } = .ok ⟨root, Parties.none⟩ ∧
      List.Forall₂ (fun c ps => resolveIncrement root c = .ok ps) s.parties increments ∧
      (root.fullName.key :: increments.flatMap Parties.keys).Nodup ∧
      r = ⟨root, Parties.gathered .root 0 increments⟩) ∧
    (∀ (i : Nat) (p : SectionPath), p.origin = .increment →
      p.text = "increment" ++ p.tail ∧ ((SectionPath.root.child i).under p).text
        = "root.parties[" ++ toString i ++ "]" ++ p.tail) ∧
    (∀ (s : PartySection) (r : ResolvedRoot), resolveRoot s = .ok r → r.parties.Agree s .root) ∧
    ∀ (owner : PartyConfiguration) (s : PartySection) (ps : Parties),
      resolveIncrement owner s = .ok ps → ps.Agree s .increment := by
  refine ⟨fun s r => resolveRoot_iff, fun i p => text_under_root_child i, fun s r h => ?_,
    fun owner s ps h => ?_⟩
  · obtain ⟨-, index, hs⟩ := resolveRoot_eq_ok.mp h
    intro t ht
    obtain ⟨j, is, sec, hpath, hat, hagrees⟩ :=
      agree_sections _ _ .root 0 s.parties hs (List.nodup_singleton _) t ht
    rw [Nat.zero_add] at hpath
    exact ⟨j :: is, sec, hpath, hat, hagrees⟩
  · obtain ⟨index, hs⟩ := resolveIncrement_eq_ok.mp h
    exact agree_section [] owner.scope .increment s hs List.nodup_nil

/-- A tenant domain that has a remote party and another tenant domain in it, beside a group. -/
def nestedSection : PartySection := { PartySection.blank with parties := [
  { PartySection.blank with parties := [{ PartySection.blank with partyName := some "R" }] },
  { PartySection.blank with
    fullName := some "A/$A"
    parties := [
      { PartySection.blank with partyName := some "S" },
      { PartySection.blank with
        fullName := some "B/$b"
        parties := [{ PartySection.blank with partyName := some "T" }] }] }] }

/-- The configuration of a root that says nothing. -/
def plainRoot : PartyConfiguration :=
  ⟨.root, ⟨Domain.default, defaultParty, defaultEnvironment⟩, none, .none, [], .root⟩

theorem resolutionsAgree_of_nested :
    (∃ r, resolveRoot nestedSection = .ok r ∧ r.parties.tenants.length = 2 ∧
      r.parties.Agree nestedSection .root) ∧
    (∃ ps, resolveIncrement plainRoot nestedSection = .ok ps ∧
      ps.Agree nestedSection .increment) ∧
    ((SectionPath.root.child 3).under (SectionPath.increment.child 1)).text
      = "root.parties[" ++ toString 3 ++ "]" ++ (SectionPath.increment.child 1).tail := by
  have hroot : (resolveRoot nestedSection).toOption.map (·.parties.tenants.length) = some 2 := rfl
  have hincrement : (resolveIncrement plainRoot nestedSection).toOption.isSome = true := rfl
  refine ⟨?_, ?_, (resolutionsAgree.2.1 3 _ rfl).2⟩
  · cases h : resolveRoot nestedSection with
    | error e =>
      rw [h] at hroot
      cases hroot
    | ok r =>
      rw [h] at hroot
      exact ⟨r, rfl, Option.some.inj hroot, resolutionsAgree.2.2.1 nestedSection r h⟩
  · cases h : resolveIncrement plainRoot nestedSection with
    | error e =>
      rw [h] at hincrement
      cases hincrement
    | ok ps => exact ⟨ps, rfl, resolutionsAgree.2.2.2 plainRoot nestedSection ps h⟩

end PartyGraph
