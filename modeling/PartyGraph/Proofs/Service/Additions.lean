import Mathlib.Data.List.Pairwise
import PartyGraph.Proofs.Service.Steady

/-!
# The books of additions

The journal tells of each addition who asked for it, which parties were made for it and what
became of it. An addition that waits for its outcome has a ticket. This module keeps the books:
which parties belong to which addition, which tickets are open, and what was shown of parties,
where a party is shown when it is put into the graph or told to appear.

No party belongs to two additions, since numbers are given out once, and no ticket is answered
twice, since only the batch that holds it answers it. So whatever was shown belongs to one
addition, and what was answered to that one decides whether it may have been shown.

## Main definitions

* `Entry.shown?`, `Entry.promised?`, `Entry.answered?`: what an entry tells.
* `Unseen`: parties of which nothing was shown.
* `Ledger`: what holds of the entries of additions and answers.
* `Batch.Landed`, `Whole`: what is said of an addition that succeeded.
* `Service.Books`: the entries, the batches that wait, and what was shown.

## Main results

* `Ledger.eq_of_made`, `Ledger.eq_of_promised`: the addition that a party or a ticket belongs to.
* `Service.Books.asked`, `Service.Books.published`, `Service.Books.answer`: how the books are kept.
-/

namespace PartyGraph

/-! ### What entries tell -/

namespace Entry

/-- The party that an entry shows: it is put into the graph, or told to appear. -/
def shown? : Entry → Option PartyId
  | .changed (.insert id) => some id
  | .told _ (.party (.appeared id)) => some id
  | _ => none

/-- The ticket of an addition that waits for its outcome. -/
def promised? : Entry → Option Nat
  | .askedToAdd _ _ _ (.ok a) => a.ticket
  | _ => none

/-- The ticket of an answer. -/
def answered? : Entry → Option Nat
  | .answered t _ => some t
  | _ => none

/-- Whether an entry is neither an addition nor an answer. -/
def IsOther : Entry → Prop
  | .askedToAdd _ _ _ _ | .answered _ _ => False
  | _ => True

/-- Whether it shows nothing either. -/
structure IsMute (e : Entry) : Prop where
  other : e.IsOther
  shown : e.shown? = none

theorem IsOther.tells {e : Entry} (h : e.IsOther) :
    e.made = [] ∧ e.promised? = none ∧ e.answered? = none := by
  cases e <;> first | exact ⟨rfl, rfl, rfl⟩ | cases h

theorem IsAside.isMute {e : Entry} (h : e.IsAside) : e.IsMute := by
  cases e with
  | told channel signal =>
    cases signal with
    | beat count => exact ⟨trivial, rfl⟩
    | party e => cases channel <;> cases h
  | passBegun | called | initialized => exact ⟨trivial, rfl⟩
  | _ => cases h

/-- Whether two entries do not belong to the same addition. -/
def Apart (e e' : Entry) : Prop :=
  e.made.Disjoint e'.made ∧ ∀ t, e.promised? = some t → e'.promised? ≠ some t

instance : Std.Symm Apart where
  symm _ _ h := ⟨fun _ hid hid' => h.1 hid' hid, fun t ht ht' => h.2 t ht' ht⟩

theorem IsOther.apart {e : Entry} (h : e.IsOther) (e' : Entry) : e.Apart e' :=
  ⟨by simp [h.tells], by simp [h.tells]⟩

end Entry

/-- Whether nothing was shown of parties. -/
def Unseen (ids : List PartyId) (journal : List Entry) : Prop :=
  ∀ id ∈ ids, ∀ e ∈ journal, e.shown? ≠ some id

namespace Unseen

variable {ids : List PartyId} {new journal : List Entry}

theorem append (hnew : Unseen ids new) (h : Unseen ids journal) : Unseen ids (new ++ journal) :=
  fun id hid e he => (List.mem_append.mp he).elim (hnew id hid e) (h id hid e)

theorem singleton {e : Entry} (h : e.shown? = none) : Unseen ids [e] := by
  intro id _ e' he hshown
  rw [List.mem_singleton.mp he, h] at hshown
  cases hshown

end Unseen

/-! ### The ledger -/

/-- What holds of the entries of a journal, when so many parties were made and so many tickets given
out: additions have nothing in common, and no ticket is answered in two ways. -/
structure Ledger (journal : List Entry) (parties tickets : Nat) : Prop where
  apart : journal.Pairwise Entry.Apart
  made : ∀ e ∈ journal, ∀ id ∈ e.made, id < parties
  promised : ∀ e ∈ journal, ∀ t, e.promised? = some t → t < tickets
  answered : ∀ e ∈ journal, ∀ t, e.answered? = some t → t < tickets
  once : ∀ t o o', .answered t o ∈ journal → .answered t o' ∈ journal → o = o'
  /-- What was answered at once to an addition that is not refused. -/
  complete : ∀ owner increment made a, .askedToAdd owner increment made (.ok a) ∈ journal →
    (∀ id ∈ a.parties, id ∈ made) ∧ (a.ticket = none → made = [])

namespace Ledger

variable {journal new : List Entry} {n n' k : Nat} {e e' : Entry}

theorem eq_of_not_apart (h : Ledger journal n k) (he : e ∈ journal) (he' : e' ∈ journal)
    (hno : ¬ e.Apart e') : e = e' :=
  Classical.byContradiction fun hne =>
    hno (h.apart.forall he he' hne)

/-- A party belongs to one addition. -/
theorem eq_of_made (h : Ledger journal n k) (he : e ∈ journal) (he' : e' ∈ journal) {id : PartyId}
    (hid : id ∈ e.made) (hid' : id ∈ e'.made) : e = e' :=
  h.eq_of_not_apart he he' fun hapart => hapart.1 hid hid'

/-- A ticket belongs to one addition. -/
theorem eq_of_promised (h : Ledger journal n k) (he : e ∈ journal) (he' : e' ∈ journal) {t : Nat}
    (ht : e.promised? = some t) (ht' : e'.promised? = some t) : e = e' :=
  h.eq_of_not_apart he he' fun hapart => hapart.2 t ht ht'

/-- A batch is known by its ticket. -/
theorem eq_of_ticket (h : Ledger journal n k) {b b' : Batch} {increment increment' : PartySection}
    {made made' : List PartyId}
    (hb : .askedToAdd b.owner increment made (.ok b.added) ∈ journal)
    (hb' : .askedToAdd b'.owner increment' made' (.ok b'.added) ∈ journal)
    (ht : b.ticket = b'.ticket) : b = b' ∧ increment = increment' ∧ made = made' := by
  have heq := h.eq_of_promised hb hb' (t := b'.ticket) (congrArg some ht) rfl
  injection heq with howner hincrement hmade hadded
  injection hadded with hadded
  injection hadded with hremotes htenants
  refine ⟨?_, hincrement, hmade⟩
  cases b
  cases b'
  simp_all

theorem mono (h : Ledger journal n k) (hn : n ≤ n') : Ledger journal n' k :=
  { h with made := fun e he id hid => Nat.lt_of_lt_of_le (h.made e he id hid) hn }

theorem cons_other (h : Ledger journal n k) (he : e.IsOther) : Ledger (e :: journal) n k where
  apart := h.apart.cons fun e' _ => he.apart e'
  made := List.forall_mem_cons.mpr ⟨by simp [he.tells], h.made⟩
  promised := List.forall_mem_cons.mpr ⟨by simp [he.tells], h.promised⟩
  answered := List.forall_mem_cons.mpr ⟨by simp [he.tells], h.answered⟩
  once t o o' ho ho' := by
    have old {o : Except IdentityError Unit} (ho : .answered t o ∈ e :: journal) :
        .answered t o ∈ journal := by
      rcases List.mem_cons.mp ho with rfl | ho
      · cases he
      · exact ho
    exact h.once t o o' (old ho) (old ho')
  complete owner increment made a ha := by
    rcases List.mem_cons.mp ha with rfl | ha
    · cases he
    · exact h.complete owner increment made a ha

/-- A ticket is answered that was not answered before. -/
theorem cons_answered (h : Ledger journal n k) {t : Nat} {outcome : Except IdentityError Unit}
    (ht : t < k) (hno : ∀ o, .answered t o ∉ journal) :
    Ledger (.answered t outcome :: journal) n k where
  apart := h.apart.cons fun e' _ => ⟨by simp [Entry.made], by simp [Entry.promised?]⟩
  made := List.forall_mem_cons.mpr ⟨by simp [Entry.made], h.made⟩
  promised := List.forall_mem_cons.mpr ⟨by simp [Entry.promised?], h.promised⟩
  answered := by
    refine List.forall_mem_cons.mpr ⟨fun t' ht' => ?_, h.answered⟩
    cases ht'
    exact ht
  once t' o o' ho ho' := by
    rcases List.mem_cons.mp ho with heq | ho <;> rcases List.mem_cons.mp ho' with heq' | ho'
    · cases heq
      cases heq'
      rfl
    · cases heq
      exact absurd ho' (hno o')
    · cases heq'
      exact absurd ho (hno o)
    · exact h.once t' o o' ho ho'
  complete owner increment made a ha := by
    rcases List.mem_cons.mp ha with heq | ha
    · cases heq
    · exact h.complete owner increment made a ha

/-- Someone asks for an addition, and the parties made for it have new numbers. -/
theorem cons_addition (h : Ledger journal n k) {k' : Nat} {owner : PartyRef}
    {increment : PartySection} {made : List PartyId} {answer : Except IdentityError Added}
    (hn : n ≤ n') (hk : k ≤ k') (hmade : ∀ id ∈ made, n ≤ id ∧ id < n')
    (hticket : ∀ a t, answer = .ok a → a.ticket = some t → t = k ∧ k' = k + 1)
    (hcomplete : ∀ a, answer = .ok a →
      (∀ id ∈ a.parties, id ∈ made) ∧ (a.ticket = none → made = [])) :
    Ledger (.askedToAdd owner increment made answer :: journal) n' k' where
  apart := by
    refine h.apart.cons fun e he => ⟨fun id hid hid' => ?_, fun t ht ht' => ?_⟩
    · exact Nat.not_lt.mpr (hmade id hid).1 (h.made e he id hid')
    · cases answer with
      | error e => cases ht
      | ok a =>
        obtain ⟨rfl, -⟩ := hticket a t rfl ht
        exact absurd (h.promised e he _ ht') (Nat.lt_irrefl _)
  made := List.forall_mem_cons.mpr ⟨fun id hid => (hmade id hid).2,
    fun e he id hid => Nat.lt_of_lt_of_le (h.made e he id hid) hn⟩
  promised := by
    refine List.forall_mem_cons.mpr ⟨fun t ht => ?_,
      fun e he t ht => Nat.lt_of_lt_of_le (h.promised e he t ht) hk⟩
    cases answer with
    | error e => cases ht
    | ok a =>
      obtain ⟨rfl, rfl⟩ := hticket a t rfl ht
      exact Nat.lt_succ_self _
  answered := List.forall_mem_cons.mpr ⟨by simp [Entry.answered?],
    fun e he t ht => Nat.lt_of_lt_of_le (h.answered e he t ht) hk⟩
  once t o o' ho ho' := by
    have old {o : Except IdentityError Unit}
        (ho : .answered t o ∈ Entry.askedToAdd owner increment made answer :: journal) :
        .answered t o ∈ journal :=
      (List.mem_cons.mp ho).resolve_left (by simp)
    exact h.once t o o' (old ho) (old ho')
  complete owner' increment' made' a ha := by
    rcases List.mem_cons.mp ha with heq | ha
    · cases heq
      exact hcomplete a rfl
    · exact h.complete owner' increment' made' a ha

theorem append_other (h : Ledger journal n k) (hnew : ∀ e ∈ new, e.IsOther) :
    Ledger (new ++ journal) n k := by
  induction new with
  | nil => exact h
  | cons e new ih =>
    rw [List.forall_mem_cons] at hnew
    exact (ih hnew.2).cons_other hnew.1

end Ledger

/-! ### Additions that succeed -/

/-- Whether a batch is in the graph as the section describes it that it was made from, where `made`
are all parties that were made. -/
structure Batch.Landed (b : Batch) (g : Graph) (increment : PartySection) (made : List PartyId) :
    Prop where
  built : g.Built b.owner increment b.remotes b.tenants
  family : b.family g = made
  remotes : ∀ id ∈ b.remotes, id ∈ g.remotesOf b.owner
  tenants : ∀ id ∈ b.tenants, id ∈ g.tenants

/-- What is said of an addition that succeeded: its parties were shown while the agent handled one
message and neither before nor after, and when the outcome was answered they were in the graph. -/
def Whole (g₀ : Graph) (journal : List Entry) (b : Batch) (increment : PartySection)
    (made : List PartyId) : Prop :=
  ∃ after during before,
    journal = after ++ .answered b.ticket (.ok ()) ::
      (during ++ .handling (.job (.add b)) :: before) ∧
    Unseen made after ∧ (∀ c, .handling c ∉ during) ∧ Unseen made before ∧
    b.Landed (g₀.after (during ++ .handling (.job (.add b)) :: before)) increment made

theorem Whole.append {g₀ : Graph} {journal : List Entry} {b : Batch} {increment : PartySection}
    {made : List PartyId} (h : Whole g₀ journal b increment made) (new : List Entry)
    (hnew : Unseen made new) : Whole g₀ (new ++ journal) b increment made := by
  obtain ⟨after, during, before, rfl, hafter, h⟩ := h
  exact ⟨new ++ after, during, before, by simp, hnew.append hafter, h⟩

/-- The batch of a job, if it is one. -/
def IdentityJob.batch? : IdentityJob → Option Batch
  | .add b => some b
  | .destroy _ => none

/-- The batches among jobs. -/
def batches (js : List IdentityJob) : List Batch := js.filterMap IdentityJob.batch?

namespace Service

variable {s s' : Service} {g₀ : Graph} {waiting : List Batch} {landed : Option Nat} {b : Batch}

/-! ### The books -/

/-- What holds of the journal of a service, where the batches of `waiting` wait for their outcome,
and `landed` is the ticket of the one that was put into the graph by now. -/
structure Books (g₀ : Graph) (waiting : List Batch) (landed : Option Nat) (s : Service) : Prop where
  ledger : Ledger s.journal s.graph.parties.length s.tickets
  unanswered : ∀ b ∈ waiting, b.ticket < s.tickets ∧ ∀ o, .answered b.ticket o ∉ s.journal
  distinct : (waiting.map (·.ticket)).Nodup
  /-- Whatever was shown belongs to an addition that succeeded or is about to. -/
  seen : ∀ id, ∀ e ∈ s.journal, e.shown? = some id →
    ∃ e' ∈ s.journal, id ∈ e'.made ∧
      ∃ t, e'.promised? = some t ∧ (.answered t (.ok ()) ∈ s.journal ∨ landed = some t)
  whole : ∀ increment made (b : Batch),
    .askedToAdd b.owner increment made (.ok b.added) ∈ s.journal →
    .answered b.ticket (.ok ()) ∈ s.journal → Whole g₀ s.journal b increment made

namespace Books

/-- The books are kept when nothing is shown, nothing is answered and additions get new tickets. -/
theorem extend (h : Books g₀ waiting landed s) (new : List Entry)
    (hj : s'.journal = new ++ s.journal)
    (hledger : Ledger s'.journal s'.graph.parties.length s'.tickets)
    (ht : s.tickets ≤ s'.tickets) (hshown : ∀ e ∈ new, e.shown? = none)
    (hanswered : ∀ e ∈ new, e.answered? = none)
    (hpromised : ∀ e ∈ new, ∀ t, e.promised? = some t → s.tickets ≤ t) :
    Books g₀ waiting landed s' := by
  have keep {e : Entry} (he : e ∈ s.journal) : e ∈ s'.journal :=
    hj ▸ List.mem_append_right _ he
  have old {e : Entry} (he : e ∈ s'.journal) (hno : e ∉ new) : e ∈ s.journal := by
    rw [hj] at he
    exact (List.mem_append.mp he).resolve_left hno
  have answered {t : Nat} {o : Except IdentityError Unit} (ho : .answered t o ∈ s'.journal) :
      .answered t o ∈ s.journal :=
    old ho fun hmem => by cases hanswered _ hmem
  constructor
  case ledger => exact hledger
  case unanswered =>
    intro b hb
    exact ⟨Nat.lt_of_lt_of_le (h.unanswered b hb).1 ht,
      fun o ho => (h.unanswered b hb).2 o (answered ho)⟩
  case distinct => exact h.distinct
  case seen =>
    intro id e he hid
    have he : e ∈ s.journal := old he fun hmem => by
      rw [hshown e hmem] at hid
      cases hid
    obtain ⟨e', he', hmade, t, ht, ho⟩ := h.seen id e he hid
    exact ⟨e', keep he', hmade, t, ht, ho.imp_left keep⟩
  case whole =>
    intro increment made b hb ho
    have ho := answered ho
    have hb := old hb fun hmem =>
      Nat.not_lt.mpr (hpromised _ hmem b.ticket rfl) (h.ledger.answered _ ho b.ticket rfl)
    rw [hj]
    refine (h.whole increment made b hb ho).append new fun id _ e he hid => ?_
    rw [hshown e he] at hid
    cases hid

/-- Entries that show nothing and are neither additions nor answers change nothing. -/
theorem mute (h : Books g₀ waiting landed s) (new : List Entry)
    (hj : s'.journal = new ++ s.journal)
    (hnew : ∀ e ∈ new, e.IsMute) (hn : s.graph.parties.length ≤ s'.graph.parties.length)
    (ht : s'.tickets = s.tickets) : Books g₀ waiting landed s' := by
  have tells (e : Entry) (he : e ∈ new) := (hnew e he).other.tells
  refine h.extend new hj ?_ (Nat.le_of_eq ht.symm) (fun e he => (hnew e he).shown)
    (fun e he => (tells e he).2.2) fun e he t ht => ?_
  · rw [hj, ht]
    exact (h.ledger.append_other fun e he => (hnew e he).other).mono hn
  · rw [(tells e he).2.1] at ht
    cases ht

/-- Someone asks for an addition. The parties and the ticket are new. -/
theorem addition (h : Books g₀ waiting landed s) (new : List Entry) {owner : PartyRef}
    {increment : PartySection} {made : List PartyId} {answer : Except IdentityError Added}
    (hj : s'.journal = .askedToAdd owner increment made answer :: (new ++ s.journal))
    (hnew : ∀ e ∈ new, e.IsMute) (hn : s.graph.parties.length ≤ s'.graph.parties.length)
    (hk : s.tickets ≤ s'.tickets)
    (hmade : ∀ id ∈ made, s.graph.parties.length ≤ id ∧ id < s'.graph.parties.length)
    (hticket : ∀ a t, answer = .ok a → a.ticket = some t →
      t = s.tickets ∧ s'.tickets = s.tickets + 1)
    (hcomplete : ∀ a, answer = .ok a →
      (∀ id ∈ a.parties, id ∈ made) ∧ (a.ticket = none → made = [])) :
    Books g₀ waiting landed s' := by
  have tells (e : Entry) (he : e ∈ new) := (hnew e he).other.tells
  refine h.extend (.askedToAdd owner increment made answer :: new) hj ?_ hk
    (List.forall_mem_cons.mpr ⟨rfl, fun e he => (hnew e he).shown⟩)
    (List.forall_mem_cons.mpr ⟨rfl, fun e he => (tells e he).2.2⟩)
    (List.forall_mem_cons.mpr ⟨fun t ht => ?_, fun e he t ht => ?_⟩)
  · rw [hj]
    exact (h.ledger.append_other fun e he => (hnew e he).other).cons_addition hn hk hmade hticket
      hcomplete
  · cases answer with
    | error e => cases ht
    | ok a => exact Nat.le_of_eq (hticket a t rfl ht).1.symm
  · rw [(tells e he).2.1] at ht
    cases ht

/-- A batch begins to wait. -/
theorem wait (h : Books g₀ waiting landed s) (hb : b.ticket < s.tickets)
    (hno : ∀ o, .answered b.ticket o ∉ s.journal) (hne : ∀ b' ∈ waiting, b'.ticket ≠ b.ticket) :
    Books g₀ (waiting ++ [b]) landed s := by
  constructor
  case ledger => exact h.ledger
  case unanswered =>
    intro b' hb'
    rcases List.mem_append.mp hb' with hb' | hb'
    · exact h.unanswered b' hb'
    · rw [List.mem_singleton.mp hb']
      exact ⟨hb, hno⟩
  case seen => exact h.seen
  case whole => exact h.whole
  case distinct =>
    rw [List.map_append, List.nodup_append]
    refine ⟨h.distinct, by simp, fun t ht t' ht' => ?_⟩
    obtain ⟨b', hb', rfl⟩ := List.mem_map.mp ht
    rw [List.mem_singleton.mp ht']
    exact hne b' hb'

/-- The outcome of a batch is answered. -/
theorem answer {landed' : Option Nat} (h : Books g₀ (b :: waiting) landed s)
    (outcome : Except IdentityError Unit)
    (hlanded : ∀ t, landed = some t → landed' = some t ∨ t = b.ticket ∧ outcome = .ok ())
    (hwhole : ∀ increment made (b' : Batch), outcome = .ok () → b'.ticket = b.ticket →
      .askedToAdd b'.owner increment made (.ok b'.added) ∈ s.journal →
      Whole g₀ (.answered b'.ticket (.ok ()) :: s.journal) b' increment made) :
    Books g₀ waiting landed' (s.answer b.ticket outcome) := by
  obtain ⟨hticket, hno⟩ := h.unanswered b List.mem_cons_self
  obtain ⟨hne, hdistinct⟩ := List.nodup_cons.mp h.distinct
  have keep {e : Entry} (he : e ∈ s.journal) : e ∈ (s.answer b.ticket outcome).journal :=
    List.mem_cons_of_mem _ he
  constructor
  case ledger => exact h.ledger.cons_answered hticket hno
  case distinct => exact hdistinct
  case unanswered =>
    intro b' hb'
    obtain ⟨hticket', hno'⟩ := h.unanswered b' (List.mem_cons_of_mem _ hb')
    refine ⟨hticket', fun o ho => ?_⟩
    rcases List.mem_cons.mp ho with heq | ho
    · injection heq with ht
      exact hne (List.mem_map.mpr ⟨b', hb', ht⟩)
    · exact hno' o ho
  case seen =>
    intro id e he hid
    rcases List.mem_cons.mp he with rfl | he
    · cases hid
    · obtain ⟨e', he', hmade, t, ht, ho⟩ := h.seen id e he hid
      refine ⟨e', keep he', hmade, t, ht, ?_⟩
      rcases ho with ho | hl
      · exact .inl (keep ho)
      · rcases hlanded t hl with hl | ⟨rfl, rfl⟩
        · exact .inr hl
        · exact .inl List.mem_cons_self
  case whole =>
    intro increment made b' hb' ho
    have hold : .askedToAdd b'.owner increment made (.ok b'.added) ∈ s.journal :=
      (List.mem_cons.mp hb').resolve_left (by simp)
    rcases List.mem_cons.mp ho with heq | ho
    · injection heq with ht houtcome
      subst houtcome
      have := hwhole increment made b' rfl ht hold
      rwa [ht] at this
    · exact (h.whole increment made b' hold ho).append [.answered b.ticket outcome]
        (.singleton rfl)

/-- An addition that is accepted. Its batch waits from then on. -/
theorem enlisted {owner : PartyRef} {increment : PartySection} {c : PartyConfiguration}
    {parties : Parties} (h : Books g₀ waiting landed s)
    (hg : s'.graph = s.graph.apply (.make (s.draft owner c parties).parties))
    (hj : s'.journal = .askedToAdd owner increment (s.draftIds owner c parties)
      (.ok (s.batch owner c parties).added) ::
        .changed (.make (s.draft owner c parties).parties) :: s.journal)
    (ht : s'.tickets = s.tickets + 1) :
    Books g₀ (waiting ++ [s.batch owner c parties]) landed s' := by
  have hlength : s'.graph.parties.length
      = s.graph.parties.length + (s.draft owner c parties).parties.length := by
    rw [hg, Graph.length_make]
  have kept : Books g₀ waiting landed s' := by
    refine h.addition [_] hj (List.forall_mem_singleton.mpr ⟨trivial, rfl⟩)
      (hlength ▸ Nat.le_add_right _ _) (ht ▸ Nat.le_succ _) (fun id hid => ?_)
      (fun a t ha ht' => ?_) fun a ha => ?_
    · rw [hlength]
      exact List.mem_range'_1.mp hid
    · cases ha
      cases ht'
      exact ⟨rfl, ht⟩
    · cases ha
      refine ⟨fun id hid => ?_, fun hno => by cases hno⟩
      rw [← family_batch]
      exact Batch.mem_family.mpr (.inl hid)
  refine kept.wait (ht ▸ Nat.lt_succ_self _) (fun o ho => ?_) fun b' hb' => ?_
  · rw [hj] at ho
    have hold : .answered (s.batch owner c parties).ticket o ∈ s.journal := by simpa using ho
    exact Nat.lt_irrefl _ (h.ledger.answered _ hold _ rfl)
  · exact Nat.ne_of_lt (h.unanswered b' hb').1

/-- A request keeps the books. -/
theorem asked {front : List Batch} (h : Books g₀ (front ++ batches s.jobs) landed s)
    (ha : s.Asked s') : Books g₀ (front ++ batches s'.jobs) landed s' := by
  have one {e : Entry} (he : e.IsOther) (he' : e.shown? = none) : ∀ e' ∈ [e], e'.IsMute :=
    List.forall_mem_singleton.mpr ⟨he, he'⟩
  have hn := ha.graph_extends.length
  cases ha with
  | quiet ha =>
    rw [ha.jobs]
    exact h.mute [] ha.journal (by simp) hn ha.tickets
  | @unready s₁ ha i =>
    rw [jobs_record, ha.jobs]
    exact h.mute [.initialized i] (congrArg _ ha.journal) (one trivial rfl) hn ha.tickets
  | attached | unmoved => exact h.mute [_] rfl (one trivial rfl) hn rfl
  | @doomed id p answer _ hp _ _ ha =>
    have mute : ∀ e ∈ [Entry.askedToDestroy id answer, .changed (.doom id)], e.IsMute :=
      List.forall_mem_cons.mpr ⟨⟨trivial, rfl⟩, one trivial rfl⟩
    cases ha with
    | refused => exact h.mute _ rfl mute hn rfl
    | accepted hopen =>
      have hopen : s.agent.isOpen = true := hopen
      have hjobs : batches (s.agent.send (.job (.destroy id))).jobs = batches s.jobs := by
        rw [Agent.jobs_send_of_open hopen]
        simp [batches, IdentityJob.batch?, Agent.Message.job?, jobs]
      change Books g₀ (front ++ batches (s.agent.send (.job (.destroy id))).jobs) landed _
      rw [hjobs]
      exact h.mute _ rfl mute hn rfl
  | refused owner increment e =>
    exact h.addition [] rfl (by simp) hn (Nat.le_refl _) (by simp) (by simp) (by simp)
  | empty owner increment =>
    refine h.addition [] rfl (by simp) hn (Nat.le_refl _) (by simp)
      (fun a t ha ht => ?_) fun a ha => ?_
    · cases ha
      cases ht
    · cases ha
      simp [Added.parties]
  | @stranded owner increment c parties _ ha _ hopen e =>
    refine h.addition [.changed _] rfl (one trivial rfl) hn (Nat.le_refl _)
      (fun id hid => ?_) (by simp) (by simp)
    rw [graph_record, graph_change, Graph.length_make]
    exact List.mem_range'_1.mp hid
  | @enlisted owner increment c parties _ ha _ hopen =>
    have hjobs : batches (s.agent.send (.job (.add (s.batch owner c parties)))).jobs
        = batches s.jobs ++ [s.batch owner c parties] := by
      rw [Agent.jobs_send_of_open hopen]
      simp [batches, IdentityJob.batch?, Agent.Message.job?, jobs]
    change Books g₀ (front ++ batches (s.agent.send (.job (.add (s.batch owner c parties)))).jobs)
      landed _
    rw [hjobs, ← List.append_assoc]
    exact h.enlisted rfl rfl rfl

end Books

/-! ### Batches that are put into the graph -/

section Publication

variable {n m : Nat}

/-- Remote parties are put at the end of the list of their owner. -/
theorem remotesOf_publishRemotes {owner : PartyRef} {ids : List PartyId}
    (hids : ∀ id ∈ ids, s.graph.IsRemote owner id)
    (hc : ∃ c, s.graph.configuration? owner = some c) :
    (ids.foldl (fun s id => s.publishRemote owner id) s).graph.remotesOf owner
        = s.graph.remotesOf owner ++ ids ∧
      ∀ id, (ids.foldl (fun s id => s.publishRemote owner id) s).graph.origin? id
        = s.graph.origin? id := by
  induction ids generalizing s with
  | nil => simp
  | cons id ids ih =>
    rw [List.forall_mem_cons] at hids
    have horigin (i : PartyId) : (s.publishRemote owner id).graph.origin? i = s.graph.origin? i :=
      Graph.origin?_insert ..
    have hroot : (s.publishRemote owner id).graph.root = s.graph.root := Graph.root_apply ..
    have hc' : ∃ c, (s.publishRemote owner id).graph.configuration? owner = some c := by
      rwa [Graph.configuration?_congr hroot fun i _ => horigin i]
    obtain ⟨hlist, hrest⟩ := ih (fun i hi => (hids.2 i hi).congr (horigin i)) hc'
    refine ⟨?_, fun i => (hrest i).trans (horigin i)⟩
    rw [List.foldl_cons, hlist, graph_publishRemote, Graph.remotesOf_insert_remote hids.1 hc,
      if_pos rfl, List.append_assoc]
    rfl

/-- Tenant domains are put at the end of theirs. -/
theorem tenants_publishTenants {ids : List PartyId} (hids : ∀ id ∈ ids, s.graph.IsTenant id) :
    (ids.foldl publishTenant s).graph.tenants = s.graph.tenants ++ ids ∧
      ∀ o, (ids.foldl publishTenant s).graph.remotesOf o = s.graph.remotesOf o := by
  induction ids generalizing s with
  | nil => simp
  | cons id ids ih =>
    rw [List.forall_mem_cons] at hids
    have hgraph : (s.publishTenant id).graph
        = { s.graph with tenants := s.graph.tenants ++ [id] } := by
      rw [graph_publishTenant, Graph.apply_insert_tenant hids.1]
    have horigin (i : PartyId) : (s.publishTenant id).graph.origin? i = s.graph.origin? i := by
      rw [hgraph]
      rfl
    obtain ⟨htenants, hlists⟩ := ih fun i hi => (hids.2 i hi).congr (horigin i)
    refine ⟨?_, fun o => (hlists o).trans ?_⟩
    · rw [List.foldl_cons, htenants, hgraph, List.append_assoc]
      rfl
    · rw [hgraph]
      cases o <;> rfl

/-- When a batch has been put into the graph, its parties are in the lists of their owners. -/
theorem mem_lists_publish (hb : b.Fits s.graph) :
    (∀ id ∈ b.remotes, id ∈ (s.publish b).graph.remotesOf b.owner) ∧
      ∀ id ∈ b.tenants, id ∈ (s.publish b).graph.tenants := by
  obtain ⟨hremotes, horigin⟩ := remotesOf_publishRemotes hb.remotes hb.owner
  obtain ⟨htenants, hlists⟩ := tenants_publishTenants
    (s := b.remotes.foldl (fun s id => s.publishRemote b.owner id) s)
    fun id hid => (hb.tenants id hid).congr (horigin id)
  constructor
  · intro id hid
    rw [publish, hlists, hremotes]
    exact List.mem_append_right _ hid
  · intro id hid
    rw [publish, htenants]
    exact List.mem_append_right _ hid

/-- Whether an entry shows one of the parties of `ids` and does nothing else. -/
def Shows (ids : List PartyId) (e : Entry) : Prop :=
  ∃ id ∈ ids, e = .changed (.insert id) ∨ ∃ channel, e = .told channel (.party (.appeared id))

theorem Shows.isOther {ids : List PartyId} {e : Entry} (h : Shows ids e) : e.IsOther := by
  obtain ⟨id, -, rfl | ⟨channel, rfl⟩⟩ := h <;> trivial

theorem Shows.mem {ids : List PartyId} {e : Entry} (h : Shows ids e) {id : PartyId}
    (hid : e.shown? = some id) : id ∈ ids := by
  obtain ⟨id', hmem, rfl | ⟨channel, rfl⟩⟩ := h <;> cases hid <;> exact hmem

/-- What has been noted on the way from `s` to `t` shows parties of `ids` and does nothing else. -/
def ShowsOnly (s : Service) (ids : List PartyId) (t : Service) : Prop :=
  ∃ new, t.journal = new ++ s.journal ∧ ∀ e ∈ new, Shows ids e

namespace ShowsOnly

variable {ids : List PartyId} {t : Service} {id : PartyId}

theorem tell (h : s.ShowsOnly ids t) (hid : id ∈ ids) (channel : Channel) :
    s.ShowsOnly ids (t.tell channel (.party (.appeared id))) := by
  obtain ⟨new, hnew, hall⟩ := h
  exact ⟨.told channel (.party (.appeared id)) :: new, congrArg _ hnew,
    List.forall_mem_cons.mpr ⟨⟨id, hid, .inr ⟨channel, rfl⟩⟩, hall⟩⟩

theorem insert (h : s.ShowsOnly ids t) (hid : id ∈ ids) :
    s.ShowsOnly ids (t.change (.insert id)) := by
  obtain ⟨new, hnew, hall⟩ := h
  exact ⟨.changed (.insert id) :: new, congrArg _ hnew,
    List.forall_mem_cons.mpr ⟨⟨id, hid, .inl rfl⟩, hall⟩⟩

theorem tellOfRemotes (h : s.ShowsOnly ids t) {rs : List PartyId} (hrs : ∀ r ∈ rs, r ∈ ids)
    (owner : PartyRef) :
    s.ShowsOnly ids (rs.foldl (fun s r => s.tellOfRemote owner (.appeared r)) t) := by
  induction rs generalizing t with
  | nil => exact h
  | cons r rs ih =>
    rw [List.forall_mem_cons] at hrs
    exact ih ((h.tell hrs.1 _).tell hrs.1 _) hrs.2

end ShowsOnly

/-- Putting a batch into the graph shows its family and does nothing else. -/
theorem showsOnly_publish (hb : b.Fits s.graph) (hs : s.graph.Sound)
    (hroom : s.graph.Room (b.family s.graph)) :
    s.ShowsOnly (b.family s.graph) (s.publish b) := by
  refine (publish_induction (P := fun _ t => s.ShowsOnly (b.family s.graph) t) hb hs hroom
    (fun id rest t hid hp ht => ?_) (fun id rest t hid hp ht => ?_) ⟨[], rfl, by simp⟩).2
  · have hmem : id ∈ b.family s.graph := Batch.mem_family.mpr (.inl (List.mem_append_left _ hid))
    exact ((ht.insert hmem).tell hmem _).tell hmem _
  · have hmem : id ∈ b.family s.graph := Batch.mem_family.mpr (.inl (List.mem_append_right _ hid))
    have htenant : t.graph.IsTenant id := (hb.tenants id hid).congr (hp.origin id)
    refine ((ht.insert hmem).tell hmem .all).tellOfRemotes (fun r hr => ?_) _
    have hlist : (t.graph.apply (.insert id)).remotesOf (.owned id)
        = s.graph.remotesOf (.owned id) := by
      rw [Graph.apply_insert_tenant htenant]
      exact hp.nested hb hid
    exact Batch.mem_family.mpr (.inr ⟨id, hid, hlist ▸ hr⟩)

end Publication

namespace Books

variable {n m : Nat}

/-- Nothing was shown of a batch that waits. -/
theorem unseen (h : Books g₀ waiting none s) (hmem : b ∈ waiting) (hb : b.Ready s n m) :
    Unseen (b.family s.graph) s.journal := by
  intro id hid e he hshown
  obtain ⟨increment, hentry, -⟩ := hb.asked
  obtain ⟨e', he', hmade, t, ht, ho⟩ := h.seen id e he hshown
  obtain rfl := h.ledger.eq_of_made he' hentry hmade hid
  obtain rfl : b.ticket = t := Option.some.inj ht
  rcases ho with ho | hl
  · exact (h.unanswered b hmem).2 _ ho
  · cases hl

/-- A batch that waits is put into the graph. -/
theorem published (h : Books g₀ (b :: waiting) none s) (hb : b.Ready s n m) (hs : s.graph.Sound)
    (hroom : s.graph.Room (b.family s.graph)) :
    Books g₀ (b :: waiting) (some b.ticket) (s.publish b) := by
  obtain ⟨new, hj, hnew⟩ := showsOnly_publish hb.fits hs hroom
  obtain ⟨increment, hentry, -⟩ := hb.asked
  have hp := publishing_publish hb.fits hs hroom
  have ht := (noted_publish s b).tickets
  have keep {e : Entry} (he : e ∈ s.journal) : e ∈ (s.publish b).journal :=
    hj ▸ List.mem_append_right _ he
  have old {e : Entry} (he : e ∈ (s.publish b).journal) (hno : ¬ e.IsOther) : e ∈ s.journal := by
    rw [hj] at he
    exact (List.mem_append.mp he).resolve_left fun he => hno (hnew e he).isOther
  constructor
  case ledger =>
    rw [hj, ht, hp.length]
    exact h.ledger.append_other fun e he => (hnew e he).isOther
  case distinct => exact h.distinct
  case unanswered =>
    intro b' hb'
    rw [ht]
    exact ⟨(h.unanswered b' hb').1, fun o ho => (h.unanswered b' hb').2 o (old ho id)⟩
  case seen =>
    intro id e he hid
    rw [hj] at he
    rcases List.mem_append.mp he with he | he
    · exact ⟨_, keep hentry, (hnew e he).mem hid, b.ticket, rfl, .inr rfl⟩
    · obtain ⟨e', he', hmade, t, ht, ho⟩ := h.seen id e he hid
      exact ⟨e', keep he', hmade, t, ht, .inl (keep (ho.resolve_right (by simp)))⟩
  case whole =>
    -- Whoever was answered has nothing in common with the batch.
    intro increment' made b' hb' ho
    have hb' := old hb' id
    have ho := old ho id
    rw [hj]
    refine (h.whole increment' made b' hb' ho).append new fun id hid e he hshown => ?_
    have heq := h.ledger.eq_of_made hb' hentry hid ((hnew e he).mem hshown)
    have hticket : b'.ticket = b.ticket := by
      injection heq with _ _ _ hadded
      injection hadded with hadded
      exact Option.some.inj (congrArg Added.ticket hadded)
    exact (h.unanswered b List.mem_cons_self).2 _ (hticket ▸ ho)

end Books

end Service

end PartyGraph
