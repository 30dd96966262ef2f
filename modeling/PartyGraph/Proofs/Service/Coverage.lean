import PartyGraph.Proofs.Service.Additions
import PartyGraph.Proofs.Service.Departures

/-!
# Passes that have a party in scope

Drivers are called for a party that is added or destroyed. If that is a tenant domain, the call is
also about its remote parties, which have no calls of their own then: the pass has them in scope.
Who is in scope is told by the graph at the time, so the passes that had a party in scope are
counted along the journal, each with the graph that the entries before it make.

A pass lasts, and drivers may look at the graph at any point of it. `Shown` says that from one point
of a journal to another they see the same remote parties.

## Main definitions

* `Each`: what holds of each entry of a journal with those before it.
* `Graph.scopeRemotes`, `Graph.inScope`: who is in scope of a pass for a party.
* `coverage`: the number of passes that had a party in scope.
* `Shown`: the remote parties that drivers see from one point to another.
* `Passed`: a pass that is over.
* `Entry.IsSilent`: entries that have nothing to do with all this.

## Main results

* `Batch.mem_family_iff_inScope`, `Service.mem_departing_iff`: who is set up and who leaves are
  those in scope.
* `Service.leaving_removeParty`: nobody leaves a list but those who leave with the party.
-/

namespace PartyGraph

/-! ### Entries with those before them -/

theorem suffix_append_cases {α : Type} {xs ys zs : List α} (h : zs <:+ xs ++ ys) :
    zs <:+ ys ∨ ∃ ws, ws <:+ xs ∧ zs = ws ++ ys := by
  obtain ⟨front, hfront⟩ := h
  rcases List.append_eq_append_iff.mp hfront with ⟨ws, hxs, hzs⟩ | ⟨rest, -, hys⟩
  · exact .inr ⟨ws, ⟨front, hxs.symm⟩, hzs⟩
  · exact .inl ⟨rest, hys.symm⟩

/-- Whether `Q` holds of each entry of a journal with the entries before it. -/
def Each (Q : Entry → List Entry → Prop) (journal : List Entry) : Prop :=
  ∀ e earlier, e :: earlier <:+ journal → Q e earlier

namespace Each

variable {Q Q' : Entry → List Entry → Prop} {new journal : List Entry}

theorem nil : Each Q [] := fun _ _ h => absurd (List.suffix_nil.mp h) (by simp)

theorem cons {e : Entry} (h : Each Q journal) (he : Q e journal) : Each Q (e :: journal) := by
  intro e' earlier hsuffix
  rcases List.suffix_cons_iff.mp hsuffix with heq | hsuffix
  · obtain ⟨rfl, rfl⟩ := List.cons.inj heq
    exact he
  · exact h e' earlier hsuffix

theorem tail {e : Entry} (h : Each Q (e :: journal)) : Each Q journal :=
  fun e' earlier hsuffix => h e' earlier (hsuffix.trans (List.suffix_cons ..))

theorem append (h : Each Q journal)
    (hnew : ∀ e earlier, e :: earlier <:+ new → Q e (earlier ++ journal)) :
    Each Q (new ++ journal) := by
  intro e earlier hsuffix
  rcases suffix_append_cases hsuffix with hsuffix | ⟨ws, hws, heq⟩
  · exact h e earlier hsuffix
  · cases ws with
    | nil => exact h e earlier (heq ▸ List.suffix_refl _)
    | cons e' ws =>
      obtain ⟨rfl, rfl⟩ := List.cons.inj heq
      exact hnew _ ws hws

theorem mono (h : Each Q journal) (hQ : ∀ e earlier, Q e earlier → Q' e earlier) :
    Each Q' journal :=
  fun e earlier hsuffix => hQ e earlier (h e earlier hsuffix)

end Each

/-! ### Scope -/

namespace Graph

variable {g g' : Graph} {t id : PartyId}

/-- The remote parties that a call for a party is about. -/
def scopeRemotes (g : Graph) (t : PartyId) : List PartyId :=
  if g.isTenant t then g.remotesOf (.owned t) else [t]

/-- Whether a pass for `t` has a party in scope. -/
def inScope (g : Graph) (t id : PartyId) : Bool := decide (id = t ∨ id ∈ g.scopeRemotes t)

theorem inScope_iff : g.inScope t id = true ↔ id = t ∨ id ∈ g.scopeRemotes t := decide_eq_true_iff

theorem isTenant_iff : g.isTenant id = true ↔ g.IsTenant id := by
  cases hp : g.party? id with
  | none => simp [isTenant, IsTenant, origin?, hp]
  | some p => simp [isTenant, IsTenant, origin?, hp, OwnedParty.isTenant]

theorem scopeRemotes_of_isTenant (h : g.IsTenant t) :
    g.scopeRemotes t = g.remotesOf (.owned t) :=
  if_pos (isTenant_iff.mpr h)

theorem scopeRemotes_of_isRemote {owner : PartyRef} (h : g.IsRemote owner t) :
    g.scopeRemotes t = [t] :=
  if_neg fun ht => not_isTenant_of_isRemote h (isTenant_iff.mp ht)

/-- Parties that are made later do not come into the scope of a party. -/
theorem Extends.scopeRemotes (h : Extends g g') (ht : t < g.parties.length) :
    g'.scopeRemotes t = g.scopeRemotes t := by
  have htenant : g'.isTenant t = g.isTenant t := by
    rw [Bool.eq_iff_iff, isTenant_iff, isTenant_iff]
    exact ⟨fun h' => h'.congr (h.origin t ht).symm, fun h' => h'.congr (h.origin t ht)⟩
  have hlist : g'.remotesOf (.owned t) = g.remotesOf (.owned t) := by
    refine h.remotesOf _ ?_
    rintro _ ⟨⟩
    exact ht
  rw [Graph.scopeRemotes, Graph.scopeRemotes, htenant, hlist]

theorem Extends.inScope (h : Extends g g') (ht : t < g.parties.length) :
    g'.inScope t id = g.inScope t id := by
  rw [Graph.inScope, Graph.inScope, h.scopeRemotes ht]

/-- All who are in scope were made. -/
theorem lt_of_inScope (hs : g.Sound) (ht : t < g.parties.length) (h : g.inScope t id = true) :
    id < g.parties.length := by
  rcases inScope_iff.mp h with rfl | h
  · exact ht
  · rw [scopeRemotes] at h
    split at h
    · exact (hs.remotes _ id h).lt
    · exact List.mem_singleton.mp h ▸ ht

/-- Whoever else is in scope of a party is a remote party of it. -/
theorem owned_of_inScope (hs : g.Sound) (h : g.inScope t id = true) :
    id = t ∨ id ∈ g.scopeRemotes t ∧ g.IsTenant t ∧ g.IsRemote (.owned t) id := by
  rcases inScope_iff.mp h with h | h
  · exact .inl h
  by_cases ht : g.isTenant t = true
  · have hlist : id ∈ g.remotesOf (.owned t) := by
      rwa [scopeRemotes, if_pos ht] at h
    exact .inr ⟨h, isTenant_iff.mp ht, hs.remotes _ id hlist⟩
  · rw [scopeRemotes, if_neg ht] at h
    exact .inl (List.mem_singleton.mp h)

end Graph

/-- The family of a batch is what a pass for its parties has in scope. -/
theorem Batch.mem_family_iff_inScope {b : Batch} {g : Graph} (hb : b.Fits g) {id : PartyId} :
    id ∈ b.family g ↔ ∃ t ∈ b.parties, g.inScope t id = true := by
  rw [Batch.mem_family]
  constructor
  · rintro (h | ⟨t, ht, h⟩)
    · exact ⟨id, h, Graph.inScope_iff.mpr (.inl rfl)⟩
    · refine ⟨t, List.mem_append_right _ ht, Graph.inScope_iff.mpr (.inr ?_)⟩
      rwa [Graph.scopeRemotes_of_isTenant (hb.tenants t ht)]
  · rintro ⟨t, ht, h⟩
    rcases Graph.inScope_iff.mp h with rfl | h
    · exact .inl ht
    · rcases List.mem_append.mp ht with hr | htenant
      · rw [Graph.scopeRemotes_of_isRemote (hb.remotes t hr), List.mem_singleton] at h
        exact .inl (h ▸ ht)
      · rw [Graph.scopeRemotes_of_isTenant (hb.tenants t htenant)] at h
        exact .inr ⟨t, htenant, h⟩

/-! ### Coverage -/

/-- Whether an entry begins a pass of a hook that has a party in scope, where `g` is the graph at
the time. -/
def Entry.covers (g : Graph) (hook : Hook) (id : PartyId) : Entry → Bool
  | .passBegun h targets => decide (h = hook) && targets.any fun t => g.inScope t id
  | _ => false

/-- The number of passes of a hook begun in a journal that had a party in scope. -/
def coverage (g₀ : Graph) (hook : Hook) (id : PartyId) : List Entry → Nat
  | [] => 0
  | e :: earlier =>
    coverage g₀ hook id earlier + (e.covers (g₀.after earlier) hook id).toNat

/-- Whether a hook is that of additions or of destructions. -/
def Hook.IsDynamic (hook : Hook) : Prop := hook = .setupDynamic ∨ hook = .teardownDynamic

/-- Whether no pass has had a party in scope so far. -/
def Uncovered (g₀ : Graph) (id : PartyId) (journal : List Entry) : Prop :=
  ∀ hook, hook.IsDynamic → coverage g₀ hook id journal = 0

section Coverage

variable {g g₀ : Graph} {hook : Hook} {id : PartyId} {new journal : List Entry} {e : Entry}

theorem coverage_append (h : ∀ e ∈ new, ∀ g, e.covers g hook id = false) :
    coverage g₀ hook id (new ++ journal) = coverage g₀ hook id journal := by
  induction new with
  | nil => rfl
  | cons e new ih =>
    rw [List.forall_mem_cons] at h
    rw [List.cons_append, coverage, ih h.2, h.1]
    rfl

theorem coverage_passBegun {targets : List PartyId} :
    coverage g₀ hook id (.passBegun hook targets :: journal) = coverage g₀ hook id journal
      + (targets.any fun t => (g₀.after journal).inScope t id).toNat := by
  simp [coverage, Entry.covers]

theorem coverage_passBegun_of_ne {hook' : Hook} {targets : List PartyId} (h : hook' ≠ hook) :
    coverage g₀ hook id (.passBegun hook' targets :: journal) = coverage g₀ hook id journal := by
  simp [coverage, Entry.covers, h]

theorem Entry.OfHandling.covers_eq_false (h : e.OfHandling) : e.covers g hook id = false := by
  cases e <;> first | rfl | cases h

theorem coverage_handling (h : ∀ e ∈ new, e.OfHandling) :
    coverage g₀ hook id (new ++ journal) = coverage g₀ hook id journal :=
  coverage_append fun e he _ => (h e he).covers_eq_false

/-- A pass begins that does not have the party in scope. -/
theorem Uncovered.passBegun {targets : List PartyId} (h : Uncovered g₀ id journal)
    (hno : ∀ t ∈ targets, (g₀.after journal).inScope t id = false) :
    Uncovered g₀ id (.passBegun hook targets :: journal) := by
  intro hook' hdynamic
  have hany : (targets.any fun t => (g₀.after journal).inScope t id) = false := by
    simpa using hno
  by_cases heq : hook = hook'
  · rw [← heq, coverage_passBegun, hany, h hook (heq ▸ hdynamic)]
    rfl
  · rw [coverage_passBegun_of_ne heq, h hook' hdynamic]

end Coverage

/-! ### What drivers see -/

/-- Whether from one point of a journal to a later one a call for a party is about the same remote
parties. -/
def Shown (g₀ : Graph) (t : PartyId) (remotes : List PartyId) (start finish : List Entry) : Prop :=
  ∀ j, start <:+ j → j <:+ finish → (g₀.after j).scopeRemotes t = remotes

namespace Shown

variable {g₀ : Graph} {t : PartyId} {remotes : List PartyId} {start finish new : List Entry}

/-- They are what a driver is answered that looks in between, in a call for the party. -/
theorem glimpse {s : Service} (h : Shown g₀ t remotes start finish)
    (hg : s.graph = g₀.after s.journal) (hstart : start <:+ s.journal)
    (hfinish : s.journal <:+ finish) :
    s.glimpse.scopeRemotes (some t) = remotes := by
  show s.graph.scopeRemotes t = remotes
  rw [hg]
  exact h s.journal hstart hfinish

theorem refl (g₀ : Graph) (t : PartyId) (start : List Entry) :
    Shown g₀ t ((g₀.after start).scopeRemotes t) start start := by
  intro j hstart hfinish
  rw [hstart.eq_of_length_le hfinish.length_le]

theorem append (h : Shown g₀ t remotes start finish)
    (hnew : ∀ n, n <:+ new → ((g₀.after finish).after n).scopeRemotes t = remotes) :
    Shown g₀ t remotes start (new ++ finish) := by
  intro j hstart hfinish
  rcases suffix_append_cases hfinish with hfinish | ⟨n, hn, rfl⟩
  · exact h j hstart hfinish
  · rw [Graph.after_append]
    exact hnew n hn

end Shown

/-- A pass that began when the journal was `before` was over by `finish`, and no driver has been
called since. -/
structure Passed (hook : Hook) (targets : List PartyId) (before finish journal : List Entry) :
    Prop where
  begun : .passBegun hook targets :: before <:+ finish
  ended : ∃ since, journal = since ++ finish ∧ ∀ e ∈ since, e.driverCall? = none

/-- The changes told in a journal, in order. -/
def told (journal : List Entry) : List PartyEvent := journal.reverse.filterMap Entry.event?

theorem told_append (new journal : List Entry) :
    told (new ++ journal) = told journal ++ told new := by
  simp [told]

theorem Service.told_journal (s : Service) : told s.journal = s.events := (events_eq s).symm

/-! ### Entries that have nothing to do with passes -/

/-- Whether an entry begins no pass for parties, shows nobody and leaves all lists as they are. -/
structure Entry.IsSilent (e : Entry) : Prop where
  covers : ∀ g hook id, hook.IsDynamic → e.covers g hook id = false
  shown : e.shown? = none
  extend : ∀ g, Graph.Extends g (e.act g)

theorem Entry.OfRequest.isSilent {e : Entry} (h : e.OfRequest) : e.IsSilent where
  covers g hook id _ := by cases e <;> first | rfl | cases h
  shown := by
    cases e with
    | changed c => cases c <;> first | rfl | cases h
    | told => cases h
    | _ => rfl
  extend g := by
    have all : ∀ e' ∈ [e], e'.OfRequest := List.forall_mem_singleton.mpr h
    exact Graph.extends_after all

theorem Graph.extends_after_silent {g : Graph} {new : List Entry} (h : ∀ e ∈ new, e.IsSilent) :
    Extends g (g.after new) := by
  induction new with
  | nil => exact .refl g
  | cons e new ih =>
    rw [List.forall_mem_cons] at h
    exact (ih h.2).trans (h.1.extend _)

/-! ### Those who leave -/

/-- Whether whoever leaves a list in the entries that come after the graph `g` was in one before and
is one of `ids`. -/
def Leaving (g : Graph) (ids : List PartyId) (new : List Entry) : Prop :=
  Each (fun e earlier => ∀ c x, e = .changed c → (g.after earlier).Listed x →
    ¬ ((g.after earlier).apply c).Listed x → g.Listed x ∧ x ∈ ids) new

theorem Graph.listed_insert {g : Graph} {id x : PartyId} (h : g.Listed x) :
    (g.apply (.insert id)).Listed x := by
  rw [Graph.apply, Graph.Listed]
  rcases h with h | ⟨o, h⟩
  · refine .inl ?_
    rcases g.tenants_modifySiblings id (· ++ [id]) with heq | ⟨-, heq⟩ <;> rw [heq]
    · exact h
    · exact List.mem_append_left _ h
  · refine .inr ⟨o, ?_⟩
    rcases g.remotesOf_modifySiblings (f := (· ++ [id])) id (.inr (Graph.configured_of_mem h)) with
      heq | ⟨-, heq⟩ <;> rw [heq]
    · exact h
    · exact List.mem_append_left _ h

theorem Graph.listed_remove_of_ne {g : Graph} {id x : PartyId} (ht : g.IsTenant id)
    (h : g.Listed x) (hne : x ≠ id) : (g.apply (.remove id)).Listed x := by
  rw [Graph.apply_remove_tenant ht]
  rcases h with h | ⟨o, h⟩
  · exact .inl (List.mem_filter.mpr ⟨h, by simpa using hne⟩)
  · refine .inr ⟨o, ?_⟩
    cases o <;> exact h

namespace Service

variable {s : Service} {id x : PartyId} {p : OwnedParty}

/-- Those who leave with a party are those whom a pass for it has in scope. -/
theorem mem_departing_iff (hp : s.graph.party? id = some p) :
    x ∈ departing s.graph id p ↔ s.graph.inScope id x = true := by
  rw [Graph.inScope_iff, departing, List.mem_append, List.mem_singleton, or_comm]
  cases hk : p.isTenant with
  | true => rw [Graph.scopeRemotes_of_isTenant (Graph.isTenant_of_party? hp hk), if_pos rfl]
  | false =>
    rw [Graph.scopeRemotes_of_isRemote (Graph.isRemote_of_party? hp hk), if_neg (by simp)]
    simp

/-- Nobody leaves a list in a destruction but those who leave with the party. -/
theorem leaving_removeParty (hs : s.graph.Sound) (hp : s.graph.party? id = some p) :
    ∃ new, (s.removeParty id p).journal = new ++ s.journal ∧
      Leaving s.graph (departing s.graph id p) new := by
  have last : id ∈ departing s.graph id p := List.mem_append_right _ List.mem_cons_self
  have leaving : ∃ new, (s.removeParty id p).journal = new ++ s.journal ∧
      (s.removeParty id p).graph = s.graph.after new ∧
      Leaving s.graph (departing s.graph id p) new := by
    refine removeParty_induction (P := fun t => ∃ new, t.journal = new ++ s.journal ∧
      t.graph = s.graph.after new ∧ Leaving s.graph (departing s.graph id p) new) s id p
      (fun hno => ?_) (fun hyes => ?_) (fun t channel e ht => ?_) fun t i _ ht => ?_
    · refine ⟨[.changed (.remove id)], rfl, rfl, Each.nil.cons ?_⟩
      rintro _ x ⟨⟩ hlisted hleft
      refine ⟨hlisted, ?_⟩
      have hstays := mt (Graph.listed_without_remote (i := x) hs hp hno).mpr
      rw [Graph.without_remote hno] at hstays
      by_contra hmem
      exact hstays hleft ⟨hlisted, fun heq => hmem (heq ▸ last)⟩
    · have ht := Graph.isTenant_of_party? hp hyes
      refine ⟨[.changed (.clear id), .changed (.remove id)], rfl, rfl,
        (Each.nil.cons ?_).cons ?_⟩
      · -- Only the tenant domain itself leaves with the first change.
        rintro _ x ⟨⟩ hlisted hleft
        refine ⟨hlisted, ?_⟩
        by_contra hmem
        exact hleft (Graph.listed_remove_of_ne ht hlisted fun heq => hmem (heq ▸ last))
      · rintro _ x ⟨⟩ hlisted hleft
        have hbefore := Graph.listed_remove_tenant ht hlisted
        refine ⟨hbefore, ?_⟩
        have hstays := mt (Graph.listed_without_tenant (i := x) hs hp hyes).mpr
        rw [Graph.without_tenant hyes] at hstays
        by_contra hmem
        refine hstays hleft ⟨hbefore, fun heq => hmem (heq ▸ last), fun hr => hmem ?_⟩
        rw [departing, if_pos hyes]
        exact List.mem_append_left _ hr
    · obtain ⟨new, hj, hg, hleaving⟩ := ht
      exact ⟨.told channel (.party (.disappeared e)) :: new, congrArg _ hj, hg,
        hleaving.cons fun c x heq => by cases heq⟩
    · obtain ⟨new, hj, hg, hleaving⟩ := ht
      refine ⟨.changed (.complete i) :: new, congrArg _ hj, congrArg (·.apply (.complete i)) hg,
        hleaving.cons ?_⟩
      rintro _ x ⟨⟩ hlisted hleft
      exact absurd ((Graph.alike_complete _ i).listed.mpr hlisted) hleft
  obtain ⟨new, hj, -, hleaving⟩ := leaving
  exact ⟨new, hj, hleaving⟩

end Service

end PartyGraph
