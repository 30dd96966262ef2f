import PartyGraph.Proofs.Service.Steady

/-!
# A destruction is ordered once

Anyone may ask for the destruction of a party, and any number of times. The request that finds the
party alive marks it and posts a job, and is told that it was the first; whoever comes later finds
the mark. The mark is also left on the remote parties of a tenant domain whose destruction is
requested, and no job is posted for them. So there is one job for a party at most, in line or
handled, and as long as there is no mark there is none (`Service.Ordered`).

The drivers are told to tear down a party when such a job is handled and at no other time, hence
once at most.

## Main definitions

* `Entry.orders`, `Entry.grants`, `Entry.targets`: what entries tell of the destruction of a party.
* `Service.Ordered`: as above.

## Main results

* `Service.Ordered.asked`: requests.
* `Service.ordered_play`: any history.
* `Service.Handled.countP`, `Service.targets_play`: the passes in which a party is torn down.
-/

namespace PartyGraph

/-! ### What entries tell -/

namespace Entry

/-- Whether the agent began to handle the destruction of a party. -/
def orders (id : PartyId) : Entry → Bool
  | .handling (.job (.destroy i)) => i = id
  | _ => false

/-- Whether a request for the destruction of a party was told to be the first. -/
def grants (id : PartyId) : Entry → Bool
  | .askedToDestroy i (.ok true) => i = id
  | _ => false

/-- Whether a pass began in which the drivers are to tear down a party. -/
def targets (id : PartyId) : Entry → Bool
  | .passBegun .teardownDynamic ids => id ∈ ids
  | _ => false

variable {e : Entry} {id : PartyId}

/-- Whether an entry neither orders nor grants a destruction. -/
structure Idle (e : Entry) : Prop where
  orders : ∀ id, e.orders id = false
  grants : ∀ id, e.grants id = false

theorem IsAside.idle (h : e.IsAside) : e.Idle := by
  cases e <;> first | exact ⟨fun _ => rfl, fun _ => rfl⟩ | cases h

theorem OfHandling.idle (h : e.OfHandling) : e.Idle := by
  cases e <;> first | exact ⟨fun _ => rfl, fun _ => rfl⟩ | cases h

theorem OfHandling.targets (h : e.OfHandling) : e.targets id = false := by
  cases e <;> first | rfl | cases h

theorem OfRequest.orders (h : e.OfRequest) : e.orders id = false := by
  cases e <;> first | rfl | cases h

theorem OfRequest.targets (h : e.OfRequest) : e.targets id = false := by
  cases e <;> first | rfl | cases h

end Entry

/-- Whether a job is the destruction of a party. -/
def IdentityJob.destroys (id : PartyId) : IdentityJob → Bool
  | .destroy i => i = id
  | .add _ => false

/-- What is in line for a party is ordered when it is taken. -/
theorem Entry.countP_handling (c : Agent.Call IdentityJob) (id : PartyId) :
    [Entry.handling c].countP (Entry.orders id)
      = c.job?.toList.countP (IdentityJob.destroys id) := by
  cases c with
  | job j =>
    cases j <;> simp [Agent.Call.job?, Entry.orders, IdentityJob.destroys, List.countP_cons]
  | start | heartbeat | stop => rfl

namespace Service

variable {s s' : Service} {line line' : List IdentityJob} {id : PartyId}

/-! ### Counting entries -/

theorem countP_works {q : Entry → Bool} {calls : List DriverCall} (h : s.Works calls s')
    (request : ∀ e : Entry, e.OfRequest → q e = false)
    (call : ∀ c : DriverCall, q c.entry = false) :
    s'.journal.countP q = s.journal.countP q := by
  refine h.induction (P := fun t => t.journal.countP q = s.journal.countP q) (fun t t' ht ha => ?_)
    (fun t c ht => ?_) rfl
  · obtain ⟨new, hj, -, hall⟩ := ha.journal
    have hnew : new.countP q = 0 :=
      List.countP_eq_zero.mpr fun e he => by simp [request e (hall e he)]
    rw [hj, List.countP_append, hnew, Nat.zero_add, ht]
  · rw [journal_record, List.countP_cons_of_neg (by simp [call c]), ht]

theorem countP_noted {q : Entry → Bool} (h : s.Noted s')
    (handling : ∀ e : Entry, e.OfHandling → q e = false) :
    s'.journal.countP q = s.journal.countP q := by
  obtain ⟨new, hj, -, hall⟩ := h.journal
  have hnew : new.countP q = 0 :=
    List.countP_eq_zero.mpr fun e he => by simp [handling e (hall e he)]
  rw [hj, List.countP_append, hnew, Nat.zero_add]

/-! ### Orders and marks -/

/-- Of a party whose destruction was requested one destruction is in line or was handled, at most,
and one request was told to be the first; of any other party, none. -/
structure Ordered (line : List IdentityJob) (s : Service) : Prop where
  orders : ∀ id, s.journal.countP (Entry.orders id) + line.countP (IdentityJob.destroys id) ≤
    (s.graph.isDestroyed id).toNat
  grants : ∀ id, s.journal.countP (Entry.grants id) ≤ (s.graph.isDestroyed id).toNat

namespace Ordered

theorem toNat_le (h : Graph.Forward s.graph s'.graph) (id : PartyId) :
    (s.graph.isDestroyed id).toNat ≤ (s'.graph.isDestroyed id).toNat := by
  cases hid : s.graph.isDestroyed id with
  | false => exact Nat.zero_le _
  | true => rw [h.isDestroyed hid]

/-- Nothing is ordered or granted, and no destruction comes into line. -/
theorem idle (h : s.Ordered line) (new : List Entry)
    (forward : Graph.Forward s.graph s'.graph) (hj : s'.journal = new ++ s.journal)
    (hnew : ∀ e ∈ new, e.Idle)
    (hline : ∀ id, line'.countP (IdentityJob.destroys id) ≤
      line.countP (IdentityJob.destroys id)) : s'.Ordered line' where
  orders id := by
    have hzero : new.countP (Entry.orders id) = 0 :=
      List.countP_eq_zero.mpr fun e he => by simp [(hnew e he).orders id]
    have hle := Nat.add_le_add_left (hline id) (s.journal.countP (Entry.orders id))
    rw [hj, List.countP_append, hzero, Nat.zero_add]
    exact Nat.le_trans hle (Nat.le_trans (h.orders id) (toNat_le forward id))
  grants id := by
    have hzero : new.countP (Entry.grants id) = 0 :=
      List.countP_eq_zero.mpr fun e he => by simp [(hnew e he).grants id]
    rw [hj, List.countP_append, hzero, Nat.zero_add]
    exact Nat.le_trans (h.grants id) (toNat_le forward id)

theorem record (h : s.Ordered line) {e : Entry} (he : e.Idle) : (s.record e).Ordered line :=
  h.idle [e] (.refl _) rfl (by simpa using he) fun _ => Nat.le_refl _

theorem noted (h : s.Ordered line) (hn : s.Noted s') : s'.Ordered line := by
  obtain ⟨new, hj, hg, hall⟩ := hn.journal
  have forward : Graph.Forward s.graph s'.graph := hg ▸ Graph.forward_after _ _
  exact h.idle new forward hj (fun e he => (hall e he).idle) fun _ => Nat.le_refl _

/-- The request that finds a party alive. -/
theorem doomed {p : OwnedParty} {answer : Except IdentityError Bool} (h : s.Ordered line)
    (hp : s.graph.party? id = some p) (ha : p.isDestroyed = false)
    (hg : s'.graph = s.graph.apply (.doom id))
    (hj : s'.journal = .askedToDestroy id answer :: .changed (.doom id) :: s.journal)
    (hline : line' = line ∨ line' = line ++ [.destroy id]) : s'.Ordered line' := by
  have forward : Graph.Forward s.graph s'.graph := hg ▸ Graph.forward_apply _ _
  have marked (i : PartyId) : (s.graph.isDestroyed i).toNat + (if id = i then 1 else 0) ≤
      (s'.graph.isDestroyed i).toNat := by
    by_cases hi : id = i
    · have alive : s.graph.isDestroyed id = false := by simp [Graph.isDestroyed, hp, ha]
      have marked : s'.graph.isDestroyed id = true := hg ▸ Graph.isDestroyed_doom hp
      subst hi
      simp [alive, marked]
    · simpa [hi] using toNat_le forward i
  constructor
  case orders =>
    intro i
    have hjournal : s'.journal.countP (Entry.orders i) = s.journal.countP (Entry.orders i) := by
      rw [hj]
      rfl
    have hone : line'.countP (IdentityJob.destroys i) ≤
        line.countP (IdentityJob.destroys i) + if id = i then 1 else 0 := by
      rcases hline with rfl | rfl <;> simp [IdentityJob.destroys]
    have := h.orders i
    have := marked i
    omega
  case grants =>
    intro i
    have hone : s'.journal.countP (Entry.grants i) ≤
        s.journal.countP (Entry.grants i) + if id = i then 1 else 0 := by
      rw [hj, List.countP_cons, List.countP_cons_of_neg (by simp [Entry.grants])]
      refine Nat.add_le_add_left ?_ _
      cases answer with
      | error e => exact Nat.zero_le _
      | ok b => cases b <;> simp [Entry.grants]
    have := h.grants i
    have := marked i
    omega

/-- Requests. -/
theorem asked (h : s.Ordered s.jobs) (ha : s.Asked s') : s'.Ordered s'.jobs := by
  have forward : Graph.Forward s.graph s'.graph := by
    obtain ⟨new, -, hg, -⟩ := ha.journal
    rw [hg]
    exact Graph.forward_after _ _
  have changed (c : GraphChange) : (Entry.changed c).Idle := ⟨fun _ => rfl, fun _ => rfl⟩
  have addition (owner : PartyRef) (increment : PartySection) (made : List PartyId)
      (answer : Except IdentityError Added) : (Entry.askedToAdd owner increment made answer).Idle :=
    ⟨fun _ => rfl, fun _ => rfl⟩
  cases ha with
  | quiet ha =>
    rw [ha.jobs]
    exact h.idle [] forward ha.journal (by simp) fun _ => Nat.le_refl _
  | @unready s₁ ha i =>
    rw [jobs_record, ha.jobs]
    have idle : (Entry.initialized i).Idle := ⟨fun _ => rfl, fun _ => rfl⟩
    exact h.idle [.initialized i] forward (congrArg _ ha.journal) (by simpa using idle)
      fun _ => Nat.le_refl _
  | attached =>
    exact h.idle [_] forward rfl (by simp [changed]) fun _ => Nat.le_refl _
  | @unmoved id answer hne _ =>
    refine h.record ⟨fun _ => rfl, fun i => ?_⟩
    cases answer with
    | error e => rfl
    | ok b =>
      cases b with
      | false => rfl
      | true => exact absurd rfl hne
  | @doomed id p answer _ hp _ halive hpost =>
    cases hpost with
    | refused => exact h.doomed hp halive rfl rfl (.inl rfl)
    | accepted hopen => exact h.doomed hp halive rfl rfl (.inr (Agent.jobs_send_of_open hopen _))
  | refused | empty => exact h.record (addition ..)
  | stranded =>
    exact h.idle [_, _] forward rfl (by simp [changed, addition]) fun _ => Nat.le_refl _
  | @enlisted owner increment c parties _ hadmits _ hopen =>
    refine h.idle [_, _] forward rfl (by simp [changed, addition]) fun id => ?_
    have hjobs : (s.agent.send (.job (.add (s.batch owner c parties)))).jobs
        = s.jobs ++ [.add (s.batch owner c parties)] := Agent.jobs_send_of_open hopen _
    show (s.agent.send (.job (.add (s.batch owner c parties)))).jobs.countP _ ≤ _
    rw [hjobs, List.countP_append]
    exact Nat.le_refl _

end Ordered

theorem steady_ordered (g₀ : Graph) : Steady g₀ fun _ line s => s.Ordered line where
  asked _ h ha := h.asked ha
  aside h ha := by
    obtain ⟨new, hj, hall⟩ := ha.journal
    exact h.idle new (ha.graph ▸ .refl _) hj (fun e he => (hall e he).idle) fun _ => Nat.le_refl _
  taken {c line s} h := by
    constructor
    case orders =>
      intro id
      have hbefore := h.orders id
      have horders := Entry.countP_handling c id
      rw [List.countP_append] at hbefore
      show (Entry.handling c :: s.journal).countP _ + _ ≤ (s.graph.isDestroyed id).toNat
      rw [← List.singleton_append, List.countP_append]
      omega
    case grants => exact fun id => h.grants id
  dropped {j line s} h := by
    have tail : s.Ordered line :=
      h.idle [] (.refl _) rfl (by simp) fun id => (List.sublist_cons_self j line).countP_le
    cases j with
    | add b => exact tail.record ⟨fun _ => rfl, fun _ => rfl⟩
    | destroy id => exact tail
  left h := h
  removed _ h _ _ := h.noted (noted_removeParty ..)
  failed _ h := h.record ⟨fun _ => rfl, fun _ => rfl⟩
  published _ h _ := h.noted (noted_publish ..)
  succeeded _ h := h.record ⟨fun _ => rfl, fun _ => rfl⟩

theorem ordered_play {c : IdentityConfiguration} {place : DataPlace} (h : new c place = .ok s)
    (moves : List Move) : (s.play moves).Ordered (s.play moves).jobs := by
  obtain ⟨r, -, blank⟩ := blank_of_new h
  have start : s.Ordered s.jobs := by
    constructor <;> intro id <;> simp [blank.journal, blank.jobs]
  exact ((steady_ordered s.graph).play_new h start moves).2

/-! ### Passes -/

/-- Whether these are the entries with which passes begin for a call: there is one pass at most, and
the drivers are to tear down a party only when it is to be destroyed. -/
def Begins (c : Agent.Call IdentityJob) (begun : List Entry) : Prop :=
  begun = [] ∨ ∃ hook ids, begun = [.passBegun hook ids] ∧
    (hook = .teardownDynamic → ∃ id, c = .job (.destroy id) ∧ ids = [id])

/-- Besides the beginning of a pass, handling a call leaves entries of requests, of calls and of
changes. -/
theorem Handled.countP {c : Agent.Call IdentityJob} {q : Entry → Bool} (h : s.Handled c s')
    (request : ∀ e : Entry, e.OfRequest → q e = false)
    (call : ∀ c : DriverCall, q c.entry = false)
    (handling : ∀ e : Entry, e.OfHandling → q e = false) :
    ∃ begun, s'.journal.countP q = s.journal.countP q + begun.countP q ∧ Begins c begun := by
  have pass {hook : Hook} {ids : List PartyId} {calls : List DriverCall} {s₁ : Service}
      (hw : (s.record (.passBegun hook ids)).Works calls s₁) :
      s₁.journal.countP q = s.journal.countP q + [Entry.passBegun hook ids].countP q := by
    rw [countP_works hw request call, journal_record, ← List.singleton_append, List.countP_append,
      Nat.add_comm]
  have noted {s₁ s₂ : Service} (hn : s₁.Noted s₂) : s₂.journal.countP q = s₁.journal.countP q :=
    countP_noted hn handling
  have answered (s₁ : Service) (ticket : Nat) (outcome : Except IdentityError Unit) :
      (s₁.answer ticket outcome).journal.countP q = s₁.journal.countP q :=
    List.countP_cons_of_neg (by simp [handling (.answered ticket outcome) trivial])
  cases h with
  | idle | gone => exact ⟨[], rfl, .inl rfl⟩
  | started _ works i =>
    have initialized := request (.initialized i) trivial
    refine ⟨[.passBegun .setup []], ?_, .inr ⟨_, _, rfl, by simp⟩⟩
    rw [← pass works, journal_record, List.countP_cons_of_neg (by simp [initialized])]
  | beat _ count => exact ⟨[], noted ((Noted.refl s).tell _ _), .inl rfl⟩
  | stopped _ works => exact ⟨_, pass works, .inr ⟨_, _, rfl, by simp⟩⟩
  | orphaned | refused => exact ⟨[], answered .., .inl rfl⟩
  | failed _ _ _ works =>
    exact ⟨_, (answered ..).trans (pass works), .inr ⟨_, _, rfl, by simp⟩⟩
  | @added b s₁ s₂ _ _ _ works after =>
    refine ⟨[.passBegun .setupDynamic b.parties], ?_, .inr ⟨_, _, rfl, by simp⟩⟩
    rw [answered, countP_works after request call, noted (noted_publish s₁ b), pass works]
  | missing _ _ works => exact ⟨_, pass works, .inr ⟨_, _, rfl, fun _ => ⟨_, rfl, rfl⟩⟩⟩
  | destroyed _ _ works =>
    exact ⟨_, (noted (noted_removeParty ..)).trans (pass works),
      .inr ⟨_, _, rfl, fun _ => ⟨_, rfl, rfl⟩⟩⟩

theorem Begins.orders {c : Agent.Call IdentityJob} {begun : List Entry} (h : Begins c begun) :
    begun.countP (Entry.orders id) = 0 := by
  rcases h with rfl | ⟨hook, ids, rfl, -⟩ <;> rfl

/-- A party is to be torn down when it is to be destroyed. -/
theorem Begins.targets {c : Agent.Call IdentityJob} {begun : List Entry} (h : Begins c begun) :
    begun.countP (Entry.targets id) ≤ c.job?.toList.countP (IdentityJob.destroys id) := by
  rcases h with rfl | ⟨hook, ids, rfl, hdestroys⟩
  · exact Nat.zero_le _
  · cases hook with
    | teardownDynamic =>
      obtain ⟨i, rfl, rfl⟩ := hdestroys rfl
      by_cases hi : i = id
      · simp [hi, Agent.Call.job?, IdentityJob.destroys, Entry.targets]
      · simp [Ne.symm hi, Entry.targets]
    | setup | setupDynamic | teardown => exact Nat.zero_le _

/-- No pass is begun for a party that was not ordered to be destroyed. -/
theorem Moved.targets {h? : Option (Service × Agent.Call IdentityJob)} (h : s.Moved h? s')
    (hs : s.journal.countP (Entry.targets id) ≤ s.journal.countP (Entry.orders id)) :
    s'.journal.countP (Entry.targets id) ≤ s'.journal.countP (Entry.orders id) := by
  have works {s₁ : Service} (hw : s.Works [] s₁) :
      s₁.journal.countP (Entry.targets id) ≤ s₁.journal.countP (Entry.orders id) := by
    rw [countP_works hw (fun _ he => he.targets) fun _ => rfl,
      countP_works hw (fun _ he => he.orders) fun _ => rfl]
    exact hs
  have noted {s₁ s₂ : Service} (hn : s₁.Noted s₂) (hj : s₁.journal = s.journal) :
      s₂.journal.countP (Entry.targets id) ≤ s₂.journal.countP (Entry.orders id) := by
    rw [countP_noted hn fun _ he => he.targets, countP_noted hn fun _ he => he.idle.orders id, hj]
    exact hs
  cases h with
  | works hw => exact works hw
  | installed hw =>
    have h₁ := works hw
    exact h₁
  | released => exact hs
  | abandoned | exited => exact noted (noted_answerDropped ..) rfl
  | @handled c a s₁ ht hh =>
    obtain ⟨begun, htargets, hbegins⟩ := hh.countP (q := Entry.targets id)
      (fun _ he => he.targets) (fun _ => rfl) fun _ he => he.targets
    obtain ⟨begun', horders, hbegins'⟩ := hh.countP (q := Entry.orders id)
      (fun _ he => he.orders) (fun _ => rfl) fun _ he => he.idle.orders id
    have handling := Entry.countP_handling c id
    have hone : begun.countP (Entry.targets id) ≤ _ := hbegins.targets
    rw [journal_record, ← List.singleton_append, List.countP_append] at htargets horders
    have htaken : [Entry.handling c].countP (Entry.targets id) = 0 := rfl
    rw [hbegins'.orders] at horders
    show s₁.journal.countP _ ≤ s₁.journal.countP _
    rw [htargets, horders]
    show 0 + s.journal.countP _ + _ ≤ _ + s.journal.countP _ + _
    omega

/-- The drivers are told to tear down a party once at most. -/
theorem targets_play {c : IdentityConfiguration} {place : DataPlace} (h : new c place = .ok s)
    (moves : List Move) (id : PartyId) :
    (s.play moves).journal.countP (Entry.targets id) ≤ 1 := by
  obtain ⟨r, -, blank⟩ := blank_of_new h
  have horders := (ordered_play h moves).orders id
  have hle : (s.play moves).journal.countP (Entry.targets id) ≤
      (s.play moves).journal.countP (Entry.orders id) :=
    moved_induction (P := fun t =>
        t.journal.countP (Entry.targets id) ≤ t.journal.countP (Entry.orders id))
      (coherent_of_new h).orderly (by simp [blank.journal])
      (fun _ _ _ _ ht hm => hm.targets ht) moves
  have := Bool.toNat_le ((s.play moves).graph.isDestroyed id)
  omega

end Service

end PartyGraph
