import PartyGraph.Proofs.Service.AllOrNothing
import PartyGraph.Proofs.Service.Coverage
import PartyGraph.Proofs.Service.EventOrder

/-!
# One pass for a party that comes and one for a party that leaves

A party that is added is set up by the pass for its batch, as a target or as a remote party of a
tenant domain that is a target. A party that leaves is torn down by the pass for itself or by that
for its tenant domain. There is no second pass for either, though a party may be destroyed both by
itself and with its tenant domain: nobody in a list was torn down before the pass that is under way,
and those who are torn down leave their lists when it is over. Nobody of a batch that waits was in
scope of any pass, because all jobs before it are about parties that were made earlier.

Who is in scope is decided when a pass begins, while drivers look at the graph when they are called.
They see the same parties, since nobody comes into a list or leaves one while drivers are called
(`Service.PassOn`).

## Main definitions

* `Service.SetUpOnce`, `Service.TornDownOnce`: what is said of a party that appears and of one that
  leaves a list.
* `Service.PassOn`: a pass that is under way.
* `Service.Covering`: what is kept.
* `Service.CoveredOnce`: what is said of a history.

## Main results

* `Service.Covering.asked`, `Service.Covering.published`, `Service.Covering.removed`: what can
  happen.
* `Service.coveredOnce`: any history.
-/

namespace PartyGraph

theorem Entry.IsPlain.isSilent {e : Entry} (h : e.IsPlain) : e.IsSilent where
  covers g hook id hdynamic := by
    cases e with
    | passBegun hook' targets =>
      have hne : hook' ≠ hook := by
        rintro rfl
        rcases hdynamic with rfl | rfl <;> cases h
      simp [Entry.covers, hne]
    | _ => rfl
  shown := by
    cases e with
    | told channel signal =>
      cases signal with
      | beat count => rfl
      | party e => cases channel <;> cases h
    | changed c => cases h
    | _ => rfl
  extend g := by
    rw [h.act]
    exact .refl g

namespace Service

/-- What is known of the messages that are handled. -/
abbrev Known := Service → Agent.Call IdentityJob → Prop

/-- What is said of a party that is told to appear when the journal is `earlier`. -/
structure SetUpOnce (g₀ : Graph) (H : Known) (id : PartyId) (earlier : List Entry) : Prop where
  once : coverage g₀ .setupDynamic id earlier = 1
  /-- In the pass for its batch no action failed, and all the while it was a target or among the
  remote parties that drivers see of the tenant domain that it was made with. -/
  pass : ∃ found b finish, H found (.job (.add b)) ∧
    Passed .setupDynamic b.parties found.journal finish earlier ∧
    (found.setUpRun b).failedIn .actions = false ∧
    (id ∈ b.parties ∨ ∃ t ∈ b.tenants, (g₀.after finish).IsRemote (.owned t) id ∧
      ∃ remotes, id ∈ remotes ∧
        Shown g₀ t remotes (.passBegun .setupDynamic b.parties :: found.journal) finish)

/-- What is said of a party that leaves a list when the journal is `earlier`, where `journal` is a
later one. -/
structure TornDownOnce (g₀ : Graph) (H : Known) (journal : List Entry) (id : PartyId)
    (earlier : List Entry) : Prop where
  once : coverage g₀ .teardownDynamic id earlier = 1
  /-- The pass was its own or that of its tenant domain. In the latter drivers saw the same remote
  parties all the while, and these were told to disappear after it. -/
  pass : ∃ found t remotes finish, H found (.job (.destroy t)) ∧
    Passed .teardownDynamic [t] found.journal finish earlier ∧
    Shown g₀ t remotes (.passBegun .teardownDynamic [t] :: found.journal) finish ∧
    (id = t ∨ id ∈ remotes ∧ (g₀.after finish).IsTenant t ∧
      (g₀.after finish).IsRemote (.owned t) id) ∧
    ((g₀.after finish).IsTenant t →
      told finish ++ remotes.map .disappeared ++ [.disappeared t] <+: told journal)

theorem TornDownOnce.append {g₀ : Graph} {H : Known} {journal earlier : List Entry} {id : PartyId}
    (h : TornDownOnce g₀ H journal id earlier) (new : List Entry) :
    TornDownOnce g₀ H (new ++ journal) id earlier := by
  obtain ⟨found, t, remotes, finish, hH, hpassed, hshown, hid, htold⟩ := h.pass
  refine ⟨h.once, found, t, remotes, finish, hH, hpassed, hshown, hid, fun ht => ?_⟩
  rw [told_append]
  exact (htold ht).trans (List.prefix_append ..)

/-- Whether all who were told to appear were set up once. -/
def AllSetUp (g₀ : Graph) (H : Known) (journal : List Entry) : Prop :=
  Each (fun e earlier => ∀ channel id, e = .told channel (.party (.appeared id)) →
    SetUpOnce g₀ H id earlier) journal

/-- Whether all who left a list were torn down once. -/
def AllTornDown (g₀ : Graph) (H : Known) (journal : List Entry) : Prop :=
  Each (fun e earlier => ∀ c id, e = .changed c → (g₀.after earlier).Listed id →
    ¬ ((g₀.after earlier).apply c).Listed id → TornDownOnce g₀ H journal id earlier) journal

variable {s s' : Service} {g₀ : Graph} {H : Known} {u : Underway} {line line' : List IdentityJob}
  {hook : Hook} {targets : List PartyId} {id : PartyId} {before since journal : List Entry}

theorem AllSetUp.append (h : AllSetUp g₀ H journal) {new : List Entry}
    (hnew : ∀ e ∈ new, e.shown? = none) :
    AllSetUp g₀ H (new ++ journal) := by
  refine Each.append h fun e earlier hsuffix channel id heq => ?_
  have hshown := hnew e (hsuffix.subset List.mem_cons_self)
  rw [heq] at hshown
  cases hshown

theorem AllTornDown.append (h : AllTornDown g₀ H journal) {new : List Entry}
    (hnew : ∀ c earlier, .changed c :: earlier <:+ new → ∀ id,
      ((g₀.after journal).after earlier).Listed id →
      ¬ (((g₀.after journal).after earlier).apply c).Listed id →
      TornDownOnce g₀ H (new ++ journal) id (earlier ++ journal)) :
    AllTornDown g₀ H (new ++ journal) := by
  have old := h.mono fun e earlier hleft c id hc hid hno => (hleft c id hc hid hno).append new
  refine Each.append old fun e earlier hsuffix c id heq hid hno => ?_
  rw [Graph.after_append] at hid hno
  exact hnew c earlier (heq ▸ hsuffix) id hid hno

/-- Nobody of a batch that waits is in scope of a party that was made before. -/
theorem inScope_of_waiting {b : Batch} {k k' : Nat} (ready : b.Ready s k k') (hs : s.graph.Sound)
    (hno : ∀ id ∈ b.parties, ¬ s.graph.Listed id) {t id : PartyId} (ht : t < k)
    (hid : id ∈ b.family s.graph) : s.graph.inScope t id = false := by
  have hne : id ≠ t := by
    rintro rfl
    exact Nat.not_lt.mpr (ready.mem_family_iff.mp hid).1 ht
  refine Bool.eq_false_iff.mpr fun hscope => ?_
  have hmem := (Graph.inScope_iff.mp hscope).resolve_left hne
  rw [Graph.scopeRemotes] at hmem
  split at hmem
  · rcases owner_of_mem_family ready.fits hs (hs.remotes _ id hmem) hid with ⟨-, hr⟩ | htenant
    · exact hno id (List.mem_append_left _ hr) (.inr ⟨_, hmem⟩)
    · have hle := (ready.mem_family_iff.mp
        (Batch.mem_family.mpr (.inl (List.mem_append_right _ htenant)))).1
      exact Nat.not_lt.mpr hle ht
  · exact hne (List.mem_singleton.mp hmem)

/-! ### A pass that is under way -/

/-- Whether a pass is under way that began when the journal was `before`, and drivers have seen the
same remote parties of its targets since then. -/
structure PassOn (g₀ : Graph) (hook : Hook) (targets : List PartyId) (before : List Entry)
    (s : Service) : Prop where
  begun : .passBegun hook targets :: before <:+ s.journal
  made : ∀ t ∈ targets, t < s.graph.parties.length
  shown : ∀ t ∈ targets,
    Shown g₀ t (s.graph.scopeRemotes t) (.passBegun hook targets :: before) s.journal

theorem PassOn.start (hg : s.graph = g₀.after s.journal)
    (hmade : ∀ t ∈ targets, t < s.graph.parties.length) :
    PassOn g₀ hook targets s.journal (s.record (.passBegun hook targets)) where
  begun := List.suffix_refl _
  made := hmade
  shown t _ := by
    have hafter : s.graph = g₀.after (.passBegun hook targets :: s.journal) := hg
    rw [graph_record, hafter]
    exact Shown.refl g₀ t _

theorem PassOn.silent {new : List Entry} (h : PassOn g₀ hook targets before s)
    (hg₀ : s.graph = g₀.after s.journal) (hj : s'.journal = new ++ s.journal)
    (hg : s'.graph = s.graph.after new)
    (hnew : ∀ e ∈ new, e.IsSilent) : PassOn g₀ hook targets before s' where
  begun := hj ▸ h.begun.trans (List.suffix_append ..)
  made t ht := Nat.lt_of_lt_of_le (h.made t ht) (hg ▸ (Graph.extends_after_silent hnew).length)
  shown t ht := by
    have same {n : List Entry} (hn : n <:+ new) :
        (s.graph.after n).scopeRemotes t = s.graph.scopeRemotes t :=
      (Graph.extends_after_silent fun e he => hnew e (hn.subset he)).scopeRemotes (h.made t ht)
    rw [hj, hg, same (List.suffix_refl _)]
    refine (h.shown t ht).append fun n hn => ?_
    rw [← hg₀]
    exact same hn

/-- The pass is over, and what comes next is its outcome. -/
theorem PassOn.passed (h : PassOn g₀ hook targets before s) (hsince : ∀ e ∈ since, e.OfHandling) :
    Passed hook targets before s.journal (since ++ s.journal) :=
  ⟨h.begun, since, rfl, fun e he => (hsince e he).driverCall?_eq_none⟩

/-- Whether a pass to tear down is under way that has a party in scope. -/
def Underway.tearsDown (g : Graph) (id : PartyId) : Underway → Bool
  | destroying _ t => g.inScope t id
  | _ => false

/-- What is known of the pass that is under way. -/
def Underway.Covers (g₀ : Graph) (H : Known) (s : Service) : Underway → Prop
  | nothing => True
  | adding f b => H f (.job (.add b)) ∧ PassOn g₀ .setupDynamic b.parties f.journal s ∧
    ∀ id ∈ b.family s.graph, coverage g₀ .setupDynamic id s.journal = 1 ∧
      coverage g₀ .teardownDynamic id s.journal = 0
  | destroying f t => H f (.job (.destroy t)) ∧ PassOn g₀ .teardownDynamic [t] f.journal s

/-! ### What is kept -/

/-- Where all who came or left were covered once, when a pass is under way and jobs are in line. -/
structure Covering (g₀ : Graph) (H : Known) (u : Underway) (line : List IdentityJob) (s : Service) :
    Prop where
  graph : s.graph = g₀.after s.journal
  appeared : AllSetUp g₀ H s.journal
  left : AllTornDown g₀ H s.journal
  fresh : ∀ id, s.graph.parties.length ≤ id → Uncovered g₀ id s.journal
  waiting : ∀ b, .add b ∈ line → (∀ t ∈ b.parties, t < s.graph.parties.length) ∧
    ∀ id ∈ b.family s.graph, Uncovered g₀ id s.journal
  /-- Nobody who is in a list was torn down before. -/
  listed : ∀ id, s.graph.Listed id →
    coverage g₀ .teardownDynamic id s.journal = (u.tearsDown s.graph id).toNat
  under : u.Covers g₀ H s

namespace Covering

/-- Entries that have nothing to do with passes, after which parties may have been made. -/
theorem silent (new : List Entry) (h : Covering g₀ H u line s) (hj : s'.journal = new ++ s.journal)
    (hg : s'.graph = s.graph.after new) (hnew : ∀ e ∈ new, e.IsSilent)
    (hlisted : ∀ id, s'.graph.Listed id → s.graph.Listed id ∨
      s.graph.parties.length ≤ id ∧ u.tearsDown s.graph id = false)
    (hline : ∀ b, .add b ∈ line' → .add b ∈ line ∨
      (∀ t ∈ b.parties, t < s'.graph.parties.length) ∧
        ∀ id ∈ b.family s'.graph, s.graph.parties.length ≤ id) :
    Covering g₀ H u line' s' := by
  have he : Graph.Extends s.graph s'.graph := hg ▸ Graph.extends_after_silent hnew
  have same {hook : Hook} (hook_dynamic : hook.IsDynamic) (id : PartyId) :
      coverage g₀ hook id s'.journal = coverage g₀ hook id s.journal := by
    rw [hj]
    exact coverage_append fun e hmem g => (hnew e hmem).covers g hook id hook_dynamic
  have uncovered {id : PartyId} (hid : Uncovered g₀ id s.journal) : Uncovered g₀ id s'.journal :=
    fun hook hdynamic => (same hdynamic id).trans (hid hook hdynamic)
  have family {b : Batch} (hb : ∀ t ∈ b.parties, t < s.graph.parties.length) :
      b.family s'.graph = b.family s.graph := by
    refine Graph.family_congr fun t ht => he.remotesOf _ ?_
    rintro _ ⟨⟩
    exact hb t (List.mem_append_right _ ht)
  constructor
  case graph => rw [hj, hg, h.graph, Graph.after_append]
  case appeared =>
    rw [hj]
    exact h.appeared.append fun e he => (hnew e he).shown
  case left =>
    rw [hj]
    refine h.left.append fun c earlier hsuffix id hid hno => ?_
    have stays := (hnew _ (hsuffix.subset List.mem_cons_self)).extend
    exact absurd ((stays _).listed hid) hno
  case fresh => exact fun id hid => uncovered (h.fresh id (Nat.le_trans he.length hid))
  case waiting =>
    intro b hb
    rcases hline b hb with hb | ⟨hmade, hfamily⟩
    · obtain ⟨hmade, hwaits⟩ := h.waiting b hb
      refine ⟨fun t ht => Nat.lt_of_lt_of_le (hmade t ht) he.length, ?_⟩
      rw [family hmade]
      exact fun id hid => uncovered (hwaits id hid)
    · exact ⟨hmade, fun id hid => uncovered (h.fresh id (hfamily id hid))⟩
  case listed =>
    intro id hid
    have tears : u.tearsDown s'.graph id = u.tearsDown s.graph id := by
      cases u with
      | nothing | adding => rfl
      | destroying f t => exact he.inScope (h.under.2.made t (List.mem_singleton.mpr rfl))
    rw [same (.inr rfl), tears]
    rcases hlisted id hid with hid | ⟨hid, hno⟩
    · exact h.listed id hid
    · rw [hno, h.fresh id hid _ (.inr rfl)]
      rfl
  case under =>
    cases u with
    | nothing => trivial
    | adding f b =>
      obtain ⟨hH, hon, hfamily⟩ := h.under
      refine ⟨hH, hon.silent h.graph hj hg hnew, fun id hid => ?_⟩
      rw [family hon.made] at hid
      rw [same (.inl rfl), same (.inr rfl)]
      exact hfamily id hid
    | destroying f t => exact ⟨h.under.1, h.under.2.silent h.graph hj hg hnew⟩

/-- Requests. -/
theorem asked (h : Covering g₀ H u s.jobs s) (hf : Footing g₀ u.stage s.jobs s)
    (ha : s.Asked s') : Covering g₀ H u s'.jobs s' := by
  obtain ⟨new, hj, hg, hall⟩ := ha.journal
  refine h.silent new hj hg (fun e he => (hall e he).isSilent) (fun id hid => ?_) fun b hb => ?_
  · refine (ha.listed hid).imp_right fun hle => ⟨hle, ?_⟩
    cases u with
    | nothing | adding => rfl
    | destroying f t =>
      have hmade := h.under.2.made t (List.mem_singleton.mpr rfl)
      refine Bool.eq_false_iff.mpr fun hscope => ?_
      exact Nat.not_lt.mpr hle (Graph.lt_of_inScope hf.1.sound hmade hscope)
  · rcases ha.jobs with hjobs | ⟨i, -, hjobs⟩ | ⟨b', hjobs, ready, -⟩
    · exact .inl (hjobs ▸ hb)
    · rw [hjobs] at hb
      exact .inl (by simpa using hb)
    · rw [hjobs, List.mem_append] at hb
      refine hb.imp_right fun hb => ?_
      cases List.mem_singleton.mp hb
      exact ⟨fun t ht => (ready.mem_family_iff.mp (Batch.mem_family.mpr (.inl ht))).2,
        fun id hid => (ready.mem_family_iff.mp hid).1⟩

/-- Fewer jobs are in line. -/
theorem mono (h : Covering g₀ H u line s) (hline : ∀ b, .add b ∈ line' → .add b ∈ line) :
    Covering g₀ H u line' s :=
  { h with waiting := fun b hb => h.waiting b (hline b hb) }

/-- A pass begins for parties that nobody who waits is in scope of. -/
theorem begun (h : Covering g₀ H .nothing line s) (hs : s.graph.Sound)
    (hmade : ∀ t ∈ targets, t < s.graph.parties.length)
    (hline : ∀ b, .add b ∈ line' → .add b ∈ line ∧
      ∀ id ∈ b.family s.graph, ∀ t ∈ targets, s.graph.inScope t id = false)
    (hlisted : ∀ id, s.graph.Listed id →
      coverage g₀ .teardownDynamic id (.passBegun hook targets :: s.journal)
        = (u.tearsDown s.graph id).toNat)
    (hunder : u.Covers g₀ H (s.record (.passBegun hook targets))) :
    Covering g₀ H u line' (s.record (.passBegun hook targets)) where
  graph := h.graph
  appeared := h.appeared.cons fun channel id heq => by cases heq
  left := by
    show AllTornDown g₀ H ([.passBegun hook targets] ++ s.journal)
    exact h.left.append fun c earlier hsuffix =>
      absurd (hsuffix.subset List.mem_cons_self) (by simp)
  fresh id hid := by
    refine (h.fresh id hid).passBegun fun t ht => ?_
    rw [← h.graph, Bool.eq_false_iff]
    exact fun hscope => Nat.not_lt.mpr hid (Graph.lt_of_inScope hs (hmade t ht) hscope)
  waiting b hb := by
    obtain ⟨hb, hapart⟩ := hline b hb
    obtain ⟨hmade, hwaits⟩ := h.waiting b hb
    exact ⟨hmade, fun id hid => (hwaits id hid).passBegun (h.graph ▸ hapart id hid)⟩
  listed := hlisted
  under := hunder

variable {b : Batch} {f : Service} {t : PartyId} {p : OwnedParty}

/-- The pass of an addition begins. -/
theorem adding (h : Covering g₀ H .nothing (.add b :: line) s)
    (hf : Footing g₀ (.busy (.add b)) line s) (hH : H s (.job (.add b))) :
    Covering g₀ H (.adding s b) line (s.record (.passBegun .setupDynamic b.parties)) := by
  obtain ⟨hmade, hwaits⟩ := h.waiting b List.mem_cons_self
  obtain ⟨n, m, ready⟩ := hf.1.ready
  have fits := ready.fits
  refine h.begun hf.1.sound hmade (fun b' hb' => ⟨List.mem_cons_of_mem _ hb', ?_⟩)
    (fun id hid => ?_) ⟨hH, .start h.graph hmade, fun id hid => ⟨?_, ?_⟩⟩
  · obtain ⟨n, m, k, k', ready, ready', hle⟩ := hf.1.behind_add hb'
    refine fun id hid t ht => Bool.eq_false_iff.mpr fun hscope => ?_
    have hlt := (ready.mem_family_iff.mp
      ((Batch.mem_family_iff_inScope fits).mpr ⟨t, ht, hscope⟩)).2
    exact Nat.not_lt.mpr (Nat.le_trans hle (ready'.mem_family_iff.mp hid).1) hlt
  · rw [coverage_passBegun_of_ne (by simp)]
    exact h.listed id hid
  · have hany : (b.parties.any fun t => s.graph.inScope t id) = true :=
      List.any_eq_true.mpr ((Batch.mem_family_iff_inScope fits).mp hid)
    rw [journal_record, coverage_passBegun, ← h.graph, hany, hwaits id hid _ (.inl rfl)]
    rfl
  · rw [journal_record, coverage_passBegun_of_ne (by simp)]
    exact hwaits id hid _ (.inr rfl)

theorem failed (h : Covering g₀ H (.adding f b) line s) : Covering g₀ H .nothing line s :=
  { h with under := trivial }

/-- Whoever is told to appear while the batch is put into the graph was set up once. -/
theorem setUpOnce (h : Covering g₀ H (.adding f b) line s) (fits : b.Fits s.graph)
    (hs : s.graph.Sound) (hok : (f.addBatch b).1 = .ok ()) (hid : id ∈ b.family s.graph)
    (hsince : ∀ e ∈ since, e.OfHandling) : SetUpOnce g₀ H id (since ++ s.journal) := by
  obtain ⟨hH, hon, hfamily⟩ := h.under
  constructor
  case once =>
    rw [coverage_handling hsince]
    exact (hfamily id hid).1
  case pass =>
    refine ⟨f, b, s.journal, hH, hon.passed hsince,
      failedIn_setUpRun (setUpDynamic_of_addBatch hok), ?_⟩
    refine (Batch.mem_family.mp hid).imp_right ?_
    rintro ⟨t, ht, hr⟩
    have hshown := hon.shown t (List.mem_append_right _ ht)
    rw [Graph.scopeRemotes_of_isTenant (fits.tenants t ht)] at hshown
    exact ⟨t, ht, h.graph ▸ hs.remotes _ id hr, _, hr, hshown⟩

/-- The batch is put into the graph. -/
theorem published (h : Covering g₀ H (.adding f b) line s)
    (hf : Footing g₀ (.busy (.add b)) line s) (hok : (f.addBatch b).1 = .ok ())
    (hroom : s.graph.Room (b.family s.graph)) : Covering g₀ H .nothing line (s.publish b) := by
  obtain ⟨-, -, hfamily⟩ := h.under
  obtain ⟨n, m, ready⟩ := hf.1.ready
  have fits := ready.fits
  have hs := hf.1.sound
  have publishing := publishing_publish fits hs hroom
  obtain ⟨new, hj, hnew⟩ := showsOnly_publish fits hs hroom
  have handling : ∀ e ∈ new, e.OfHandling := by
    intro e he
    obtain ⟨id, -, rfl | ⟨channel, rfl⟩⟩ := hnew e he <;> trivial
  have same (hook : Hook) (id : PartyId) :
      coverage g₀ hook id (s.publish b).journal = coverage g₀ hook id s.journal := by
    rw [hj]
    exact coverage_handling handling
  constructor
  case graph => exact (hf.1.published hroom).graph
  case appeared =>
    rw [hj]
    refine Each.append h.appeared fun e earlier hsuffix channel id heq => ?_
    have hmem : id ∈ b.family s.graph :=
      (hnew e (hsuffix.subset List.mem_cons_self)).mem (by rw [heq]; rfl)
    exact h.setUpOnce fits hs hok hmem fun e' he =>
      handling e' (hsuffix.subset (List.mem_cons_of_mem _ he))
  case left =>
    rw [hj]
    refine h.left.append fun c earlier hsuffix id hid hno => ?_
    obtain ⟨i, -, hinsert | ⟨channel, htold⟩⟩ := hnew _ (hsuffix.subset List.mem_cons_self)
    · cases hinsert
      exact absurd (Graph.listed_insert hid) hno
    · cases htold
  case fresh =>
    intro id hid hook hdynamic
    rw [same]
    exact h.fresh id (publishing.length ▸ hid) hook hdynamic
  case waiting =>
    intro b' hb'
    obtain ⟨hmade, hwaits⟩ := h.waiting b' hb'
    obtain ⟨n, m, k, k', ready, ready', hle⟩ := hf.1.behind_add hb'
    have spares := (spares_publish ready hs hroom).mono
      (Nat.le_trans (Nat.le_of_lt ready.lt) hle) ready'.bound
    rw [ready'.family_eq spares, publishing.length]
    exact ⟨hmade, fun id hid hook hdynamic => (same hook id).trans (hwaits id hid hook hdynamic)⟩
  case listed =>
    intro id hid
    rw [same]
    rcases (listed_publish fits hs hroom id).mp hid with hid | hid
    · exact h.listed id hid
    · exact (hfamily id hid).2
  case under => trivial

/-- The pass of a destruction begins. -/
theorem destroying (h : Covering g₀ H .nothing (.destroy t :: line) s)
    (hf : Footing g₀ (.busy (.destroy t)) line s) (hH : H s (.job (.destroy t))) :
    Covering g₀ H (.destroying s t) line (s.record (.passBegun .teardownDynamic [t])) := by
  have hmade : ∀ i ∈ [t], i < s.graph.parties.length := by
    rw [List.forall_mem_singleton]
    obtain ⟨n, hlined⟩ := hf.1.lined
    cases hlined with
    | destroy _ hid rest => exact Nat.lt_of_lt_of_le hid rest.le
  refine h.begun hf.1.sound hmade (fun b hb => ⟨List.mem_cons_of_mem _ hb, ?_⟩)
    (fun id hid => ?_) ⟨hH, .start h.graph hmade⟩
  · obtain ⟨k, k', ready, hlt⟩ := hf.1.behind_destroy hb
    intro id hid
    rw [List.forall_mem_singleton]
    exact inScope_of_waiting ready hf.1.sound
      (fun i hi => (hf.2.waiting b (List.mem_cons_of_mem _ hb) i hi).2) hlt hid
  · rw [coverage_passBegun, ← h.graph, h.listed id hid]
    simp [Underway.tearsDown]

/-- Whoever leaves with the party was torn down once. -/
theorem tornDownOnce (h : Covering g₀ H (.destroying f t) line s) (hs : s.graph.Sound)
    (hp : s.graph.party? t = some p) (hid : s.graph.Listed id)
    (hmem : id ∈ departing s.graph t p) (hsince : ∀ e ∈ since, e.OfHandling) :
    TornDownOnce g₀ H (s.removeParty t p).journal id (since ++ s.journal) := by
  obtain ⟨hH, hon⟩ := h.under
  have hscope := (mem_departing_iff hp).mp hmem
  constructor
  case once =>
    rw [coverage_handling hsince, h.listed id hid]
    exact congrArg Bool.toNat hscope
  case pass =>
    refine ⟨f, t, s.graph.scopeRemotes t, s.journal, hH, hon.passed hsince,
      hon.shown t (List.mem_singleton.mpr rfl), h.graph ▸ Graph.owned_of_inScope hs hscope, ?_⟩
    intro ht
    rw [← h.graph] at ht
    have htenant : p.isTenant = true := by
      simpa [Graph.isTenant, hp] using Graph.isTenant_iff.mpr ht
    rw [told_journal, told_journal, events_removeParty hp, departing, if_pos htenant,
      Graph.scopeRemotes_of_isTenant ht]
    simp

/-- The party leaves. -/
theorem removed (h : Covering g₀ H (.destroying f t) line s)
    (hf : Footing g₀ (.busy (.destroy t)) line s) (hp : s.graph.party? t = some p) :
    Covering g₀ H .nothing line (s.removeParty t p) := by
  have hs := hf.1.sound
  have loses := loses_removeParty hs hp
  obtain ⟨new, hj, hleaving⟩ := leaving_removeParty hs hp
  have handling : ∀ e ∈ new, e.OfHandling := by
    obtain ⟨new', hj', -, hall⟩ := (noted_removeParty s t p).journal
    obtain rfl := List.append_cancel_right (hj.symm.trans hj')
    exact hall
  have same (hook : Hook) (id : PartyId) :
      coverage g₀ hook id (s.removeParty t p).journal = coverage g₀ hook id s.journal := by
    rw [hj]
    exact coverage_handling handling
  constructor
  case graph => exact (hf.1.removed hp).graph
  case appeared =>
    obtain ⟨new', hj', hmute⟩ := mute_removeParty s t p
    rw [hj']
    exact h.appeared.append fun e he => (hmute e he).shown
  case left =>
    rw [hj]
    refine h.left.append fun c earlier hsuffix id hid hno => ?_
    rw [← h.graph] at hid hno
    obtain ⟨hlisted, hmem⟩ := hleaving _ earlier hsuffix c id rfl hid hno
    rw [← hj]
    exact h.tornDownOnce hs hp hlisted hmem fun e he =>
      handling e (hsuffix.subset (List.mem_cons_of_mem _ he))
  case fresh =>
    intro id hid hook hdynamic
    rw [same]
    exact h.fresh id (loses.length ▸ hid) hook hdynamic
  case waiting =>
    intro b hb
    obtain ⟨hmade, hwaits⟩ := h.waiting b hb
    obtain ⟨k, k', ready, hlt⟩ := hf.1.behind_destroy hb
    have spares := (spares_removeParty hs hp hlt).mono (Nat.le_refl k) ready.bound
    rw [ready.family_eq spares, loses.length]
    exact ⟨hmade, fun id hid hook hdynamic => (same hook id).trans (hwaits id hid hook hdynamic)⟩
  case listed =>
    intro id hid
    obtain ⟨hid, hstays⟩ := (listed_removeParty hs hp).mp hid
    rw [mem_departing_iff hp, Bool.not_eq_true] at hstays
    rw [same, h.listed id hid]
    exact congrArg Bool.toNat hstays
  case under => trivial

end Covering

/-! ### Histories -/

theorem lasting_covering (g₀ : Graph) (H : Known) : Lasting g₀ H (Covering g₀ H) where
  same h hg hj :=
    h.silent [] hj hg (by simp) (fun id hid => .inl (hg ▸ hid)) fun _ hb => .inl hb
  noted {_ _ s e} h he := by
    refine h.silent [e] rfl (he.act s.graph).symm ?_ (fun _ hid => .inl hid)
      fun _ hb => .inl hb
    rw [List.forall_mem_singleton]
    exact he.isSilent
  asked hf h ha := h.asked hf ha
  left h := h.mono fun _ hb => List.mem_cons_of_mem _ hb
  adding hf h hH _ := h.adding hf hH
  failed h := h.failed
  published hf h hok hroom := h.published hf hok hroom
  destroying hf h hH _ := h.destroying hf hH
  removed hf h hp _ := h.removed hf hp

/-- What is said of passes in a history. -/
structure CoveredOnce (s₀ : Service) (moves : List Move) : Prop where
  /-- Whoever is told to appear was set up by one pass before that. -/
  setUp : ∀ channel id earlier,
    .told channel (.party (.appeared id)) :: earlier <:+ (s₀.play moves).journal →
    SetUpOnce s₀.graph (fun found c => (found, c) ∈ s₀.handled moves) id earlier
  /-- Whoever leaves a list was torn down by one pass before that. -/
  tearDown : ∀ c id earlier, .changed c :: earlier <:+ (s₀.play moves).journal →
    (s₀.graph.after earlier).Listed id →
    ¬ (s₀.graph.after (.changed c :: earlier)).Listed id →
    TornDownOnce s₀.graph (fun found c => (found, c) ∈ s₀.handled moves)
      (s₀.play moves).journal id earlier

/-- **One pass for each who comes and one for each who leaves.** In every history of a new service
whoever is told to appear was in scope of exactly one pass of an addition, in which no action
failed, and whoever leaves a list was in scope of exactly one pass of a destruction. -/
theorem coveredOnce {c : IdentityConfiguration} {place : DataPlace} {s₀ : Service}
    (h : new c place = .ok s₀) (moves : List Move) : s₀.CoveredOnce moves := by
  obtain ⟨r, -, blank⟩ := blank_of_new h
  have hj := blank.journal
  have start : Covering s₀.graph (fun found c => (found, c) ∈ s₀.handled moves) .nothing s₀.jobs
      s₀ := by
    constructor
    case graph => rw [hj]; rfl
    case appeared => exact hj ▸ .nil
    case left => exact hj ▸ .nil
    case fresh => exact fun id _ hook _ => by rw [hj]; rfl
    case waiting => simp [blank.jobs]
    case listed => exact fun id _ => by rw [hj]; rfl
    case under => trivial
  have covering := (lasting_covering s₀.graph _).play_new h start moves fun _ hx => hx
  constructor
  case setUp => exact fun channel id earlier hsuffix => covering.appeared _ _ hsuffix channel id rfl
  case tearDown =>
    exact fun c id earlier hsuffix => covering.left _ _ hsuffix c id rfl

/-- A driver is registered that does nothing, and then a tenant domain lives. -/
def attendedLife : List Move :=
  .register "EchoFeatureDriver" true [] (fun _ _ => .finish .succeeded) :: lifeOfDomain

theorem coveredOnce_attendedLife :
    ∃ s₀, new .default ⟨"/home", none⟩ = .ok s₀ ∧ s₀.CoveredOnce attendedLife := by
  obtain ⟨s₀, h⟩ := exists_new_default
  exact ⟨s₀, h, coveredOnce h _⟩

/-- The tenant domain, the remote party that came with it and the one that was added later were each
set up once and torn down once. -/
example : (new .default ⟨"/home", none⟩).toOption.map (fun s =>
    [0, 1, 2].map fun id =>
      (coverage s.graph .setupDynamic id (s.play attendedLife).journal,
        coverage s.graph .teardownDynamic id (s.play attendedLife).journal)) =
    some [(1, 1), (1, 1), (1, 1)] := by
  decide +kernel

end Service

end PartyGraph
