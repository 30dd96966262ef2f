import Mathlib.Data.List.Forall2
import PartyGraph.Proofs.Section.Distinct

/-!
# Resolution at another place

What a section resolves to depends on its scope. Its place in the tree only goes into the paths of
its parties, and the index of names only decides whether it resolves at all. So a section that
resolves somewhere resolves at any other place of the same scope whose index has none of its
names, and its parties there are the same but for their paths (`relocate_section`).

Paths are moved by putting them below another (`SectionPath.under`). The induction moves parties
that have paths without any beginning, so that one statement serves for both places.

## Main definitions

* `SectionPath.under`, `Parties.under`: the same path or parties below a base.
* `Parties.gathered`: the parties of consecutive children, each below the path of its child.

## Main results

* `relocate_section`: the induction over sections.
* `gathered_of_eq_ok`, `eq_ok_of_gathered`: children resolve together when each resolves by itself
  and no two names coincide.
-/

namespace PartyGraph

/-! ### Paths -/

namespace SectionPath

/-- The path below a base. -/
def under (base p : SectionPath) : SectionPath := ⟨base.origin, base.indices ++ p.indices⟩

/-- The path without a beginning. -/
def here : SectionPath := ⟨.increment, []⟩

@[simp] theorem under_here (base : SectionPath) : base.under here = base := by
  simp [under, here]

@[simp] theorem under_child (base p : SectionPath) (i : Nat) :
    base.under (p.child i) = (base.under p).child i := by
  simp [under, child]

theorem under_under (base p q : SectionPath) : base.under (p.under q) = (base.under p).under q := by
  simp [under]

/-- What is written behind the word for the origin. -/
def tail (p : SectionPath) : String :=
  String.join (p.indices.map fun i => ".parties[" ++ toString i ++ "]")

theorem text_increment {p : SectionPath} (h : p.origin = .increment) :
    p.text = "increment" ++ p.tail := by
  rw [text, h, tail]

/-- To move a path below a base, its beginning is replaced by the text of the base. -/
theorem text_under (base p : SectionPath) : (base.under p).text = base.text ++ p.tail := by
  simp [under, text, tail, String.join_append, String.append_assoc]

end SectionPath

/-! ### Parties -/

/-- The configuration at another place. -/
def PartyConfiguration.under (base : SectionPath) (c : PartyConfiguration) : PartyConfiguration :=
  { c with path := base.under c.path }

/-- The tenant domain at another place. -/
def TenantConfiguration.under (base : SectionPath) (t : TenantConfiguration) :
    TenantConfiguration :=
  ⟨t.party.under base, t.remotes.map (·.under base)⟩

namespace Parties

/-- The parties at another place. -/
def under (base : SectionPath) (ps : Parties) : Parties :=
  ⟨ps.remotes.map (·.under base), ps.tenants.map (·.under base)⟩

@[ext] theorem ext' {a b : Parties} (hr : a.remotes = b.remotes) (ht : a.tenants = b.tenants) :
    a = b := by
  cases a
  cases b
  simp_all

@[simp] theorem remotes_append (a b : Parties) : (a ++ b).remotes = a.remotes ++ b.remotes := rfl

@[simp] theorem tenants_append (a b : Parties) : (a ++ b).tenants = a.tenants ++ b.tenants := rfl

@[simp] theorem under_append (base : SectionPath) (a b : Parties) :
    (a ++ b).under base = a.under base ++ b.under base := by
  ext1 <;> simp [under]

theorem under_under (base p : SectionPath) (ps : Parties) :
    (ps.under p).under base = ps.under (base.under p) := by
  ext1 <;>
    simp [under, PartyConfiguration.under, TenantConfiguration.under, SectionPath.under_under]

theorem under_remote (base : SectionPath) (c : PartyConfiguration) :
    (remote c).under base = remote (c.under base) := rfl

theorem under_tenant (base : SectionPath) (c : PartyConfiguration) (inner : Parties) :
    (tenant c inner).under base = tenant (c.under base) (inner.under base) := by
  ext1 <;> simp [under, tenant, TenantConfiguration.under]

/-- The names of parties are the same at every place. -/
@[simp] theorem keys_under (base : SectionPath) (ps : Parties) :
    (ps.under base).keys = ps.keys := by
  simp [keys, all, under, List.map_flatMap, List.flatMap_map, TenantConfiguration.under,
    PartyConfiguration.under, Function.comp_def]

/-- The parties of consecutive children of the section at `p`, of which the first has number `i`,
each at the place of its child. -/
def gathered (p : SectionPath) (i : Nat) : List Parties → Parties
  | [] => none
  | ps :: rest => ps.under (p.child i) ++ gathered p (i + 1) rest

theorem keys_gathered (p : SectionPath) (i : Nat) (pss : List Parties) :
    (gathered p i pss).keys.Perm (pss.flatMap keys) := by
  induction pss generalizing i with
  | nil => exact .refl _
  | cons ps rest ih =>
    rw [gathered, List.flatMap_cons]
    refine (keys_append _ _).trans ?_
    rw [keys_under]
    exact (ih (i + 1)).append_left _

end Parties

/-! ### One section -/

/-- Whether a computation gives what another gives, when that one succeeds. -/
def Except.Yields {ε α : Type} (x y : Except ε α) : Prop := ∀ a, x = .ok a → y = .ok a

theorem Except.Yields.refl {ε α : Type} (x : Except ε α) : Except.Yields x x := fun _ h => h

theorem Except.Yields.bind {ε α β : Type} {x y : Except ε α} {f g : α → Except ε β}
    (h : Except.Yields x y) (hf : ∀ a, Except.Yields (f a) (g a)) :
    Except.Yields (x >>= f) (y >>= g) := by
  intro b hb
  obtain ⟨a, hx, ha⟩ := Except.exists_of_bind_eq_ok hb
  rw [h a hx]
  exact hf a b ha

theorem SectionPath.yields_blame {α : Type} (path path' : SectionPath) (x : Except NameError α) :
    Except.Yields (path.blame x) (path'.blame x) := by
  intro a h
  cases x with
  | ok b => exact h
  | error e => cases h

theorem yields_choose {α : Type} (path path' : SectionPath) (conflict : String)
    (a b : Option α) : Except.Yields (choose path conflict a b) (choose path' conflict a b) := by
  intro c h
  cases a <;> cases b <;> first | exact h | cases h

/-- The names of a section are the same at every place. -/
theorem PartySection.yields_names (s : PartySection) (path path' : SectionPath) (domain : Domain)
    (party : Option Segment) (environment : Segment) :
    Except.Yields (s.names path domain party environment)
      (s.names path' domain party environment) := by
  unfold PartySection.names
  refine (path.yields_blame path' _).bind fun ownParty =>
    (path.yields_blame path' _).bind fun ownEnvironment => ?_
  cases s.fullName with
  | none => exact (path.yields_blame path' _).bind fun _ => .refl _
  | some fullName =>
    refine (path.yields_blame path' _).bind fun parts => ?_
    dsimp only
    split
    · exact fun a h => nomatch h
    · exact (yields_choose path path' _ _ _).bind fun _ =>
        (yields_choose path path' _ _ _).bind fun _ => .refl _

/-- The policy of a section is the same at every place. -/
theorem PartySection.yields_policy (s : PartySection) (path path' : SectionPath)
    (parent : FeaturePolicy) : Except.Yields (s.policy path parent) (s.policy path' parent) := by
  intro p h
  unfold PartySection.policy at h ⊢
  split at h
  · exact h
  · cases h

theorem NameIndex.enter_of_not_mem {index : NameIndex} {name : FullName}
    (h : name.key ∉ index.keys) (path : SectionPath) :
    index.enter name path = .ok ((name.key, path.text) :: index) := by
  have hlookup : List.lookup name.key index = none := by
    refine List.lookup_eq_none_iff.mpr fun e he => ?_
    rw [bne_iff_ne]
    rintro hkey
    exact h (List.mem_map.mpr ⟨e, he, hkey.symm⟩)
  rw [NameIndex.enter, hlookup]

/-! ### The induction over sections -/

/-- Whether an index has none of some names. -/
def NameIndex.LacksAll (index : NameIndex) (keys : List String) : Prop :=
  ∀ k ∈ keys, k ∉ index.keys

namespace Resolved

variable {index index' index'' : NameIndex} {ps qs : Parties}

/-- What was entered was new to the index, and no name was entered twice. -/
theorem lacksAll (h : Resolved index index' ps) (hnodup : index.keys.Nodup) :
    index.LacksAll ps.keys := by
  have hperm := h.keys.nodup_iff.mp (h.nodup hnodup)
  exact fun k hk hk' => (List.nodup_append.mp hperm).2.2 k hk k hk' rfl

/-- A name is new to the index after others if it is none of them and was new before. -/
theorem lacksAll_after (h : Resolved index index' ps) {keys : List String}
    (hindex : index.LacksAll keys) (hps : ∀ k ∈ keys, k ∉ ps.keys) : index'.LacksAll keys := by
  intro k hk hmem
  rcases List.mem_append.mp (h.keys.mem_iff.mp hmem) with hmem | hmem
  · exact hps k hk hmem
  · exact hindex k hk hmem

/-- Two resolutions one after the other enter different names. -/
theorem disjoint (h : Resolved index index' ps) (h' : Resolved index' index'' qs)
    (hnodup : index.keys.Nodup) : ∀ k ∈ qs.keys, k ∉ ps.keys := by
  intro k hk hk'
  exact h'.lacksAll (h.nodup hnodup) k hk (h.keys.mem_iff.mpr (List.mem_append_left _ hk'))

end Resolved

mutual

/-- **A section resolves to the same parties wherever their names are new.** -/
theorem relocate_section (index : NameIndex) (scope : Scope) (path : SectionPath) :
    (s : PartySection) → {index' : NameIndex} → {ps : Parties} →
    resolveSection index scope path s = .ok (index', ps) → index.keys.Nodup →
    ∃ raw : Parties, ps = raw.under path ∧ ∀ (index₂ : NameIndex) (path₂ : SectionPath),
      index₂.LacksAll raw.keys →
        ∃ index₂', resolveSection index₂ scope path₂ s = .ok (index₂', raw.under path₂)
  | ⟨fullName, domainName, partyName, environmentName, address, allow, disallow, settings,
      parties⟩, index', ps, h, hnodup => by
    have hres := resolves_of_eq_ok h
    clear h
    cases hres with
    | group hnames hpolicy hparty h =>
      obtain ⟨raw, rfl, hraw⟩ := relocate_sections index _ path 0 parties h hnodup
      refine ⟨raw, rfl, fun index₂ path₂ hlacks => ?_⟩
      obtain ⟨index₂', hok⟩ := hraw index₂ path₂ hlacks
      exact ⟨index₂', (Resolves.group (PartySection.yields_names _ path path₂ _ _ _ _ hnames)
        (PartySection.yields_policy _ path path₂ _ _ hpolicy) hparty hok).eq_ok⟩
    | @tenant names policy party index₁ _ nested hnames hpolicy hparty henter hdomain h =>
      obtain ⟨hno, hkeys⟩ := NameIndex.enter_eq_ok henter
      have hnodup₁ : index₁.keys.Nodup := hkeys ▸ hnodup.cons hno
      have hnested := (resolved_sections index₁ _ path 0 parties h).lacksAll hnodup₁
      obtain ⟨raw, rfl, hraw⟩ := relocate_sections index₁ _ path 0 parties h hnodup₁
      refine ⟨Parties.tenant ⟨.tenantDomain, ⟨names.domain, party, names.environment⟩, none, policy,
        settings, .here⟩ raw, ?_, fun index₂ path₂ hlacks => ?_⟩
      · rw [Parties.under_tenant, PartyConfiguration.under, SectionPath.under_here]
      · have hperm := Parties.keys_tenant ⟨.tenantDomain, ⟨names.domain, party, names.environment⟩,
          none, policy, settings, .here⟩ raw
        have hnew : (⟨names.domain, party, names.environment⟩ : FullName).key ∉ index₂.keys :=
          hlacks _ (hperm.mem_iff.mpr List.mem_cons_self)
        have henter₂ := NameIndex.enter_of_not_mem hnew path₂
        obtain ⟨index₂', hok⟩ := hraw _ path₂ (by
          intro k hk hk'
          rw [(NameIndex.enter_eq_ok henter₂).2] at hk'
          rcases List.mem_cons.mp hk' with rfl | hk'
          · rw [Parties.keys_under] at hnested
            exact hnested _ hk (hkeys ▸ List.mem_cons_self)
          · exact hlacks k (hperm.mem_iff.mpr (List.mem_cons_of_mem _ hk)) hk')
        refine ⟨index₂', ?_⟩
        rw [Parties.under_tenant, PartyConfiguration.under, SectionPath.under_here]
        exact (Resolves.tenant (PartySection.yields_names _ path path₂ _ _ _ _ hnames)
          (PartySection.yields_policy _ path path₂ _ _ hpolicy) hparty henter₂ hdomain hok).eq_ok
    | @remote names policy party _ hnames hpolicy hparty henter hdomain =>
      refine ⟨Parties.remote ⟨.remote, ⟨names.domain, party, names.environment⟩, address, policy,
        settings, .here⟩, ?_, fun index₂ path₂ hlacks => ?_⟩
      · rw [Parties.under_remote, PartyConfiguration.under, SectionPath.under_here]
      · have hnew : (⟨names.domain, party, names.environment⟩ : FullName).key ∉ index₂.keys :=
          hlacks _ List.mem_cons_self
        have henter₂ := NameIndex.enter_of_not_mem hnew path₂
        rw [Parties.under_remote, PartyConfiguration.under, SectionPath.under_here]
        exact ⟨_, (Resolves.remote (PartySection.yields_names _ path path₂ _ _ _ _ hnames)
          (PartySection.yields_policy _ path path₂ _ _ hpolicy) hparty henter₂ hdomain).eq_ok⟩

/-- The same of consecutive children. -/
theorem relocate_sections (index : NameIndex) (scope : Scope) (path : SectionPath) (i : Nat) :
    (ss : List PartySection) → {index' : NameIndex} → {ps : Parties} →
    resolveSections index scope path i ss = .ok (index', ps) → index.keys.Nodup →
    ∃ raw : Parties, ps = raw.under path ∧ ∀ (index₂ : NameIndex) (path₂ : SectionPath),
      index₂.LacksAll raw.keys →
        ∃ index₂', resolveSections index₂ scope path₂ i ss = .ok (index₂', raw.under path₂)
  | [], index', ps, h, hnodup => by
    rw [resolveSections] at h
    cases h
    exact ⟨Parties.none, rfl, fun index₂ path₂ _ => ⟨index₂, by rw [resolveSections]; rfl⟩⟩
  | s :: rest, index', ps, h, hnodup => by
    obtain ⟨index₁, first, others, hs, hrest, rfl⟩ := resolveSections_cons_eq_ok.mp h
    have hfirst := resolved_section index scope (path.child i) s hs
    have hothers := resolved_sections index₁ scope path (i + 1) rest hrest
    have hdisjoint := hfirst.disjoint hothers hnodup
    obtain ⟨raw, rfl, hraw⟩ := relocate_section index scope (path.child i) s hs hnodup
    obtain ⟨raw', rfl, hraw'⟩ :=
      relocate_sections index₁ scope path (i + 1) rest hrest (hfirst.nodup hnodup)
    rw [Parties.keys_under, Parties.keys_under] at hdisjoint
    refine ⟨raw.under (SectionPath.here.child i) ++ raw', ?_, fun index₂ path₂ hlacks => ?_⟩
    · rw [Parties.under_append, Parties.under_under, SectionPath.under_child,
        SectionPath.under_here]
    · have hperm := Parties.keys_append (raw.under (SectionPath.here.child i)) raw'
      rw [Parties.keys_under] at hperm
      obtain ⟨index₃, hok⟩ := hraw index₂ (path₂.child i)
        fun k hk => hlacks k (hperm.mem_iff.mpr (List.mem_append_left _ hk))
      have hlacks' : index₃.LacksAll raw'.keys :=
        (resolved_section index₂ scope (path₂.child i) s hok).lacksAll_after
          (fun k hk => hlacks k (hperm.mem_iff.mpr (List.mem_append_right _ hk)))
          (by rwa [Parties.keys_under])
      obtain ⟨index₂', hok'⟩ := hraw' index₃ path₂ hlacks'
      refine ⟨index₂', ?_⟩
      rw [Parties.under_append, Parties.under_under, SectionPath.under_child,
        SectionPath.under_here]
      exact resolveSections_cons_eq_ok.mpr ⟨index₃, _, _, hok, hok', rfl⟩

end

/-! ### Children by themselves -/

/-- The parties of a section that is resolved by itself, as an addition is. -/
def ResolvesAlone (scope : Scope) (s : PartySection) (ps : Parties) : Prop :=
  ∃ index, resolveSection [] scope .increment s = .ok (index, ps)

/-- A section that resolves in a tree resolves by itself, and its parties in the tree are those. -/
theorem resolvesAlone_of_eq_ok {index index' : NameIndex} {scope : Scope} {path : SectionPath}
    {s : PartySection} {ps : Parties} (h : resolveSection index scope path s = .ok (index', ps))
    (hnodup : index.keys.Nodup) : ∃ alone, ResolvesAlone scope s alone ∧ ps = alone.under path := by
  obtain ⟨raw, rfl, hraw⟩ := relocate_section index scope path s h hnodup
  obtain ⟨index₂, hok⟩ := hraw [] .increment fun k _ hk => absurd hk List.not_mem_nil
  refine ⟨raw.under .increment, ⟨index₂, hok⟩, ?_⟩
  rw [Parties.under_under]
  exact congrArg raw.under (SectionPath.under_here path).symm

/-- A section that resolves by itself resolves wherever its names are new. -/
theorem ResolvesAlone.relocate {scope : Scope} {s : PartySection} {ps : Parties}
    (h : ResolvesAlone scope s ps) {index : NameIndex} (hlacks : index.LacksAll ps.keys)
    (path : SectionPath) :
    ∃ index', resolveSection index scope path s = .ok (index', ps.under path) ∧
      Resolved index index' (ps.under path) := by
  obtain ⟨index₀, h⟩ := h
  obtain ⟨raw, rfl, hraw⟩ := relocate_section [] scope .increment s h List.nodup_nil
  rw [Parties.keys_under] at hlacks
  obtain ⟨index', hok⟩ := hraw index path hlacks
  have hpath : (raw.under .increment).under path = raw.under path := by
    rw [Parties.under_under]
    exact congrArg raw.under (SectionPath.under_here path)
  rw [hpath]
  exact ⟨index', hok, resolved_section index scope path s hok⟩

/-- The parties of children that resolve together are those of the children by themselves. -/
theorem gathered_of_eq_ok {index index' : NameIndex} {scope : Scope} {path : SectionPath} {i : Nat}
    {ss : List PartySection} {ps : Parties}
    (h : resolveSections index scope path i ss = .ok (index', ps)) (hnodup : index.keys.Nodup) :
    ∃ alone, List.Forall₂ (ResolvesAlone scope) ss alone ∧ ps = Parties.gathered path i alone := by
  induction ss generalizing index i ps with
  | nil =>
    rw [resolveSections] at h
    cases h
    exact ⟨[], .nil, rfl⟩
  | cons s rest ih =>
    obtain ⟨index₁, first, others, hs, hrest, rfl⟩ := resolveSections_cons_eq_ok.mp h
    obtain ⟨alone, halone, rfl⟩ := resolvesAlone_of_eq_ok hs hnodup
    obtain ⟨aloneRest, hrestAlone, rfl⟩ :=
      ih hrest ((resolved_section index scope (path.child i) s hs).nodup hnodup)
    exact ⟨alone :: aloneRest, .cons halone hrestAlone, rfl⟩

/-- Children that resolve by themselves resolve together when all their names differ. -/
theorem eq_ok_of_gathered {index : NameIndex} {scope : Scope} {ss : List PartySection}
    {alone : List Parties} (h : List.Forall₂ (ResolvesAlone scope) ss alone)
    (hlacks : index.LacksAll (alone.flatMap Parties.keys))
    (hnodup : (alone.flatMap Parties.keys).Nodup) (path : SectionPath) (i : Nat) :
    ∃ index', resolveSections index scope path i ss
      = .ok (index', Parties.gathered path i alone) := by
  induction h generalizing index i with
  | nil => exact ⟨index, by rw [resolveSections]; rfl⟩
  | @cons s ps rest pss hs _ ih =>
    rw [List.flatMap_cons] at hlacks hnodup
    obtain ⟨-, hrestNodup, hdisjoint⟩ := List.nodup_append.mp hnodup
    obtain ⟨index₁, hok, hresolved⟩ :=
      hs.relocate (fun k hk => hlacks k (List.mem_append_left _ hk)) (path.child i)
    have hlacks₁ : index₁.LacksAll (pss.flatMap Parties.keys) :=
      hresolved.lacksAll_after (fun k hk => hlacks k (List.mem_append_right _ hk))
        fun k hk hk' => hdisjoint k (by rwa [Parties.keys_under] at hk') k hk rfl
    obtain ⟨index', hok'⟩ := ih hlacks₁ hrestNodup (i + 1)
    exact ⟨index', resolveSections_cons_eq_ok.mpr ⟨index₁, _, _, hok, hok', rfl⟩⟩

end PartyGraph
