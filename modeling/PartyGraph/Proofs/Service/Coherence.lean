import PartyGraph.Proofs.Service.Batches

/-!
# What holds throughout a history

The jobs of the agent stand in a line. Each of them is about numbers that had been given out when
it was posted, and a batch has numbers of its own, so along the line the numbers of batches grow
(`Service.Lined`). When a job is handled, the batches behind it are therefore left alone, and this
is what keeps the lists of the graph sound and its names distinct (`Service.Coherent`).

While a job is handled it is not in line any more, but it still counts. So what holds is indexed by
the `Stage` that the agent is at.

## Main definitions

* `Service.Lined`: jobs in line.
* `Stage`: what the agent is at.
* `Service.Coherent`: the graph, the journal and the jobs in line fit together.
* `Service.Aside`: what concerns neither parties nor outcomes.

## Main results

* `Service.removeParty_induction`: one step for each change in which a party leaves.
* `Service.spares_removeParty`: what is behind it in line is spared.
* `Service.Coherent.asked`, `Service.Coherent.published`, `Service.Coherent.removed`: the graph
  changes.
* `Service.coherent_of_new`: the beginning.
-/

namespace PartyGraph

namespace Service

variable {s s' : Service}

/-! ### Jobs in line -/

/-- Jobs in the order in which they are handled. A number smaller than `n` may have been given out
for any job before them, and all numbers that they are about are smaller than `m`. -/
inductive Lined (s : Service) : Nat → List IdentityJob → Nat → Prop
  | nil {n m : Nat} (h : n ≤ m) : Lined s n [] m
  | destroy {n k m : Nat} {id : PartyId} {js : List IdentityJob} (hn : n ≤ k) (hid : id < k)
    (rest : Lined s k js m) : Lined s n (.destroy id :: js) m
  | add {n k k' m : Nat} {b : Batch} {js : List IdentityJob} (hn : n ≤ k) (hb : b.Ready s k k')
    (rest : Lined s k' js m) : Lined s n (.add b :: js) m

namespace Lined

variable {n m k : Nat} {js : List IdentityJob}

theorem le (h : s.Lined n js m) : n ≤ m := by
  induction h with
  | nil h => exact h
  | destroy hn _ _ ih => exact Nat.le_trans hn ih
  | add hn hb _ ih => exact Nat.le_trans hn (Nat.le_trans (Nat.le_of_lt hb.lt) ih)

theorem mono (h : s.Lined n js m) (hm : m ≤ k) : s.Lined n js k := by
  induction h with
  | nil h => exact .nil (Nat.le_trans h hm)
  | destroy hn hid _ ih => exact .destroy hn hid (ih hm)
  | add hn hb _ ih => exact .add hn hb (ih hm)

/-- Jobs stay in line as long as all that comes after the first is spared. -/
theorem spared (h : s.Lined n js m) (hs : s.Spares s' n m) : s'.Lined n js m := by
  induction h with
  | nil h => exact .nil h
  | destroy hn hid _ ih => exact .destroy hn hid (ih (hs.mono hn (Nat.le_refl _)))
  | add hn hb hrest ih =>
    exact .add hn (hb.spared (hs.mono hn hrest.le))
      (ih (hs.mono (Nat.le_trans hn (Nat.le_of_lt hb.lt)) (Nat.le_refl _)))

theorem append_destroy {id : PartyId} (h : s.Lined n js m) (hid : id < m) :
    s.Lined n (js ++ [.destroy id]) m := by
  induction h with
  | nil h => exact .destroy h hid (.nil (Nat.le_refl _))
  | destroy hn hid' _ ih => exact .destroy hn hid' (ih hid)
  | add hn hb _ ih => exact .add hn hb (ih hid)

theorem append_add {b : Batch} (h : s.Lined n js m) (hb : b.Ready s m k) :
    s.Lined n (js ++ [.add b]) k := by
  induction h with
  | nil h => exact .add h hb (.nil (Nat.le_refl _))
  | destroy hn hid _ ih => exact .destroy hn hid (ih hb)
  | add hn hb' _ ih => exact .add hn hb' (ih hb)

theorem tail {j : IdentityJob} (h : s.Lined n (j :: js) m) : ∃ k, s.Lined k js m := by
  cases h with
  | destroy _ _ rest => exact ⟨_, rest⟩
  | add _ _ rest => exact ⟨_, rest⟩

/-- The numbers of a batch in line. -/
theorem ready {b : Batch} (h : s.Lined n js m) (hb : .add b ∈ js) :
    ∃ k k', n ≤ k ∧ b.Ready s k k' := by
  induction h with
  | nil => cases hb
  | destroy hn _ _ ih =>
    obtain ⟨k, k', hk, hready⟩ := ih (by simpa using hb)
    exact ⟨k, k', Nat.le_trans hn hk, hready⟩
  | add hn hb' _ ih =>
    rcases List.mem_cons.mp hb with heq | hb
    · cases heq
      exact ⟨_, _, hn, hb'⟩
    · obtain ⟨k, k', hk, hready⟩ := ih hb
      exact ⟨k, k', Nat.le_trans hn (Nat.le_trans (Nat.le_of_lt hb'.lt) hk), hready⟩

end Lined

/-! ### Additions that are accepted -/

/-- The batch of an addition. -/
def batch (s : Service) (owner : PartyRef) (c : PartyConfiguration) (parties : Parties) : Batch :=
  ⟨owner, (s.draft owner c parties).remotes, (s.draft owner c parties).tenants, s.tickets⟩

theorem family_batch (s : Service) (owner : PartyRef) (c : PartyConfiguration) (parties : Parties) :
    (s.batch owner c parties).family (s.graph.apply (.make (s.draft owner c parties).parties))
      = s.draftIds owner c parties :=
  (Graph.drafted_make (g := s.graph) rfl).family

theorem Admits.ready {owner : PartyRef} {increment : PartySection} {c : PartyConfiguration}
    {parties : Parties} (h : s.Admits owner increment c parties)
    (hgraph : s'.graph = s.graph.apply (.make (s.draft owner c parties).parties))
    (hj : .askedToAdd owner increment (s.draftIds owner c parties)
      (.ok (s.batch owner c parties).added) ∈ s'.journal) :
    (s.batch owner c parties).Ready s' s.graph.parties.length s'.graph.parties.length := by
  have drafted : (s.graph.apply (.make (s.draft owner c parties).parties)).Drafted owner
      s.graph.parties.length (s.draft owner c parties) parties := Graph.drafted_make rfl
  have extends' := Graph.extends_make s.graph (s.draft owner c parties).parties
  rw [← hgraph] at drafted extends'
  have hlength : s'.graph.parties.length
      = s.graph.parties.length + (s.draft owner c parties).parties.length := by
    rw [hgraph, Graph.length_make]
  have earlier (t : PartyId) (ht : owner = .owned t) : t < s.graph.parties.length := by
    subst ht
    obtain ⟨p, hp, -⟩ := Option.map_eq_some_iff.mp h.configured
    exact (List.getElem?_eq_some_iff.mp hp).1
  have hfamily : (s.batch owner c parties).family s'.graph = s.draftIds owner c parties :=
    hgraph ▸ family_batch s owner c parties
  constructor
  case family => rw [hfamily, draftIds, hlength, Nat.add_sub_cancel_left]
  case nonempty =>
    intro hnil
    obtain ⟨hremotes, htenants⟩ := List.append_eq_nil_iff.mp hnil
    have made := drafted.made
    rw [show (s.draft owner c parties).remotes = [] from hremotes,
      show (s.draft owner c parties).tenants = [] from htenants] at made
    have hempty := h.nonempty
    rw [Parties.isEmpty, List.forall₂_nil_left_iff.mp made.remotes,
      List.forall₂_nil_left_iff.mp made.tenants] at hempty
    cases hempty
  case bound => exact Nat.le_refl _
  case earlier => exact earlier
  case rootOnly =>
    intro hne
    refine h.rootOnly fun hnil => hne ?_
    have made := drafted.made.tenants
    rw [hnil] at made
    exact List.forall₂_nil_right_iff.mp made
  case asked =>
    have hconf := Graph.configuration?_congr extends'.root fun id hid =>
      extends'.origin id (earlier id hid)
    exact ⟨increment, hfamily ▸ hj, c, parties, hconf.trans h.configured, h.resolved, drafted.made⟩

/-- What a request puts at the end of the line, if anything. -/
theorem Asked.jobs (h : s.Asked s') :
    s'.jobs = s.jobs ∨
      (∃ id < s.graph.parties.length, s'.jobs = s.jobs ++ [.destroy id]) ∨
      ∃ b, s'.jobs = s.jobs ++ [.add b] ∧
        b.Ready s' s.graph.parties.length s'.graph.parties.length ∧
        b.ticket = s.tickets ∧ s'.tickets = s.tickets + 1 := by
  cases h with
  | quiet h => exact .inl h.jobs
  | unready h i => exact .inl h.jobs
  | attached | unmoved | refused | empty | stranded => exact .inl rfl
  | doomed hp _ _ h =>
    cases h with
    | refused => exact .inl rfl
    | accepted hopen =>
      exact .inr (.inl ⟨_, (List.getElem?_eq_some_iff.mp hp).1, Agent.jobs_send_of_open hopen _⟩)
  | @enlisted owner increment c parties _ h _ hopen =>
    exact .inr (.inr ⟨s.batch owner c parties, Agent.jobs_send_of_open hopen _,
      h.ready rfl List.mem_cons_self, rfl, rfl⟩)

/-! ### Parties that leave -/

/-- A party leaves the graph, a tenant domain then loses its remote parties, and after that
destructions of those who left are told and completed. -/
theorem removeParty_induction {P : Service → Prop} (s : Service) (id : PartyId) (p : OwnedParty)
    (remote : p.isTenant = false → P (s.change (.remove id)))
    (tenant : p.isTenant = true → P ((s.change (.remove id)).change (.clear id)))
    (told : ∀ t channel e, P t → P (t.tell channel (.party (.disappeared e))))
    (completed : ∀ t i, i = id ∨
      p.isTenant = true ∧ i ∈ (s.graph.apply (.remove id)).remotesOf (.owned id) →
      P t → P (t.change (.complete i))) : P (s.removeParty id p) := by
  rw [removeParty]
  by_cases hp : p.isTenant = true
  · have fold (rs : List PartyId)
        (hrs : ∀ r ∈ rs, r ∈ (s.graph.apply (.remove id)).remotesOf (.owned id)) {t : Service}
        (h : P t) : P (rs.foldl
          (fun s r => (s.tellOfRemote (.owned id) (.disappeared r)).change (.complete r)) t) := by
      induction rs generalizing t with
      | nil => exact h
      | cons r rs ih =>
        rw [List.forall_mem_cons] at hrs
        exact ih hrs.2 (completed _ _ (.inr ⟨hp, hrs.1⟩) (told _ _ _ (told _ _ _ h)))
    rw [if_pos hp]
    exact completed _ _ (.inl rfl) (told _ _ _ (fold _ (fun _ hr => hr) (tenant hp)))
  · rw [if_neg hp]
    have left := remote (by simpa using hp)
    exact completed _ _ (.inl rfl) (told _ _ _ (told _ _ _ left))

/-- What is left is the graph without the party, with some destructions completed. -/
theorem alike_removeParty (s : Service) (id : PartyId) (p : OwnedParty) :
    Graph.Alike (s.graph.without id p) (s.removeParty id p).graph := by
  refine removeParty_induction (P := fun t => Graph.Alike (s.graph.without id p) t.graph) s id p
    (fun hno => ?_) (fun hyes => ?_) (fun _ _ _ h => h)
    fun _ i _ h => h.trans (Graph.alike_complete _ i)
  · rw [Graph.without_remote hno]
    exact .refl _
  · rw [Graph.without_tenant hyes]
    exact .refl _

/-- What has greater numbers than a party is spared when the party leaves the graph. -/
theorem spares_removeParty {id n : Nat} {p : OwnedParty} (hs : s.graph.Sound)
    (hp : s.graph.party? id = some p) (hid : id < n) :
    s.Spares (s.removeParty id p) n s.graph.parties.length := by
  have alike := alike_removeParty s id p
  obtain ⟨new, hj, -⟩ := (noted_removeParty s id p).journal
  constructor
  case root => exact alike.root.trans Graph.root_without
  case length => exact Nat.le_of_eq (alike.length.trans Graph.length_without).symm
  case origin => exact fun i _ => (alike.origin i).trans (Graph.origin?_without i)
  case remotesOf =>
    intro t ht _ hr
    rw [alike.remotesOf]
    refine Graph.remotesOf_without hs hp (fun ho => ?_) fun hmem => ?_
    · exact Nat.not_le.mpr hid (PartyRef.owned.inj ho ▸ ht)
    · exact Nat.not_le.mpr hid (hr id hmem)
  case journal => exact fun e he => hj ▸ List.mem_append_right _ he

end Service

/-! ### Stages -/

/-- What the agent is at. -/
inductive Stage where
  /-- It handles nothing, or a call that is no job. -/
  | free
  /-- It handles a job. -/
  | busy (j : IdentityJob)
  /-- It has put a batch into the graph, and the outcome is not answered yet. -/
  | settled (b : Batch)

namespace Stage

/-- The job that the agent handles, unless that has come to its point. -/
def pending : Stage → List IdentityJob
  | busy j => [j]
  | _ => []

/-- The stage at which a call is handled. -/
def ofCall : Agent.Call IdentityJob → Stage
  | .job j => busy j
  | _ => free

end Stage

/-- Whether an entry concerns neither parties nor outcomes nor the messages of the agent. -/
def Entry.IsAside : Entry → Prop
  | .passBegun _ _ | .called _ _ _ | .initialized _ => True
  | .told .heartbeat (.beat _) => True
  | _ => False

theorem Entry.IsAside.act {e : Entry} (h : e.IsAside) (g : Graph) : e.act g = g := by
  cases e <;> first | rfl | cases h

namespace Service

variable {s s' : Service}

/-- Nothing happened that concerns parties or outcomes. The agent may have changed. -/
structure Aside (s s' : Service) : Prop where
  graph : s'.graph = s.graph
  tickets : s'.tickets = s.tickets
  journal : ∃ new, s'.journal = new ++ s.journal ∧ ∀ e ∈ new, e.IsAside

theorem Aside.of_eq (graph : s'.graph = s.graph) (tickets : s'.tickets = s.tickets)
    (journal : s'.journal = s.journal) : s.Aside s' :=
  ⟨graph, tickets, [], journal, by simp⟩

theorem aside_record (s : Service) {e : Entry} (he : e.IsAside) : s.Aside (s.record e) :=
  ⟨rfl, rfl, [e], rfl, by simpa using he⟩

/-- The graph is what the journal makes of `g₀`, its lists are sound and its names distinct, and the
jobs are in line. -/
structure Coherent (g₀ : Graph) (stage : Stage) (line : List IdentityJob) (s : Service) : Prop where
  orderly : s.Orderly
  graph : s.graph = g₀.after s.journal
  sound : s.graph.Sound
  room : s.graph.Room []
  lined : ∃ n, s.Lined n (stage.pending ++ line) s.graph.parties.length

namespace Coherent

variable {g₀ : Graph} {stage : Stage} {line : List IdentityJob} {id : PartyId} {b : Batch}

theorem nodup (h : Coherent g₀ stage line s) : s.graph.keys.Nodup := h.room.keys_nodup

theorem graph_after (h : Coherent g₀ stage line s) {new : List Entry}
    (hj : s'.journal = new ++ s.journal) (hg : s'.graph = s.graph.after new) :
    s'.graph = g₀.after s'.journal := by
  rw [hj, Graph.after_append, ← h.graph, hg]

/-- Nothing is lost when parties are made. -/
theorem extend (h : Coherent g₀ stage line s) (new : List Entry) (ho : s'.Orderly)
    (he : Graph.Extends s.graph s'.graph) (hs : s'.graph.Sound)
    (hj : s'.journal = new ++ s.journal) (hg : s'.graph = s.graph.after new) :
    Coherent g₀ stage line s' := by
  obtain ⟨n, hlined⟩ := h.lined
  have spares := (Spares.of_extends he ⟨new, hj⟩).mono (Nat.zero_le n) (Nat.le_refl _)
  constructor
  case orderly => exact ho
  case graph => exact h.graph_after hj hg
  case sound => exact hs
  case room => exact h.room.extend he h.sound (by simp)
  case lined => exact ⟨n, (hlined.spared spares).mono he.length⟩

theorem aside (h : Coherent g₀ stage line s) (ho : s'.Orderly) (ha : s.Aside s') :
    Coherent g₀ stage line s' := by
  obtain ⟨new, hj, hall⟩ := ha.journal
  refine h.extend new ho (ha.graph ▸ .refl _) (ha.graph ▸ h.sound) hj ?_
  rw [ha.graph]
  clear hj
  induction new with
  | nil => rfl
  | cons e new ih =>
    rw [List.forall_mem_cons] at hall
    exact (ih hall.2).trans (hall.1.act _).symm

/-- An entry that says nothing of the graph. -/
theorem record (h : Coherent g₀ stage line s) {e : Entry} (he : e.act s.graph = s.graph) :
    Coherent g₀ stage line (s.record e) :=
  h.extend [e] (h.orderly.record e) (.refl _) h.sound rfl he.symm

/-- What matters is the jobs in line, whether or not one of them is being handled. -/
theorem restage {line' : List IdentityJob} (h : Coherent g₀ stage line s) (stage' : Stage)
    (hline : stage'.pending ++ line' = stage.pending ++ line) : Coherent g₀ stage' line' s :=
  ⟨h.orderly, h.graph, h.sound, h.room, hline ▸ h.lined⟩

theorem left {j : IdentityJob} (h : Coherent g₀ (.busy j) line s) : Coherent g₀ .free line s := by
  obtain ⟨n, hlined⟩ := h.lined
  exact ⟨h.orderly, h.graph, h.sound, h.room, hlined.tail⟩

/-- A message is taken. -/
theorem taken {c : Agent.Call IdentityJob} {a : Agent IdentityJob}
    (h : Coherent g₀ .free s.jobs s) (ht : s.agent.Takes c a) :
    Coherent g₀ (.ofCall c) a.jobs ({ s with agent := a }.record (.handling c)) := by
  have hline : (Stage.ofCall c).pending ++ a.jobs = Stage.free.pending ++ s.jobs := by
    rw [show s.jobs = c.job?.toList ++ a.jobs from ht.jobs]
    cases c <;> rfl
  have hrecord : Coherent g₀ (.ofCall c) a.jobs (s.record (.handling c)) :=
    (h.restage (.ofCall c) hline).record rfl
  exact hrecord.aside (h.orderly.taken ht) (.of_eq rfl rfl rfl)

/-! #### Requests -/

theorem sound_asked (h : s.graph.Sound) (ha : s.Asked s') : s'.graph.Sound := by
  cases ha with
  | quiet ha => exact ha.graph ▸ h
  | unready ha i => exact ha.graph ▸ h
  | attached p type value => exact h.alike (Graph.alike_attach _ p type value)
  | @doomed id _ _ _ _ _ _ ha =>
    have := h.alike (Graph.alike_doom s.graph id)
    cases ha <;> exact this
  | unmoved | refused | empty => exact h
  | stranded ha | enlisted ha => exact h.make (resolveIncrement_proper ha.resolved) rfl

/-- A request makes parties at most, and puts one job at the end of the line at most. -/
theorem asked (h : Coherent g₀ stage s.jobs s) (ha : s.Asked s') :
    Coherent g₀ stage s'.jobs s' := by
  obtain ⟨new, hj, hg, -⟩ := ha.journal
  have he := ha.graph_extends
  obtain ⟨n, hlined⟩ := h.lined
  have lined : s'.Lined n (stage.pending ++ s.jobs) s.graph.parties.length :=
    hlined.spared ((Spares.of_extends he ⟨new, hj⟩).mono (Nat.zero_le n) (Nat.le_refl _))
  constructor
  case orderly => exact ha.orderly h.orderly
  case graph => exact h.graph_after hj hg
  case sound => exact sound_asked h.sound ha
  case room => exact h.room.extend he h.sound (by simp)
  case lined =>
    refine ⟨n, ?_⟩
    rcases ha.jobs with hjobs | ⟨id, hid, hjobs⟩ | ⟨b, hjobs, ready, -⟩
    · rw [hjobs]
      exact lined.mono he.length
    · rw [hjobs, ← List.append_assoc]
      exact (lined.append_destroy hid).mono he.length
    · rw [hjobs, ← List.append_assoc]
      exact lined.append_add ready

/-! #### Jobs -/

theorem ready (h : Coherent g₀ (.busy (.add b)) line s) : ∃ n m, b.Ready s n m := by
  obtain ⟨n, hlined⟩ := h.lined
  obtain ⟨k, k', -, hready⟩ := hlined.ready List.mem_cons_self
  exact ⟨k, k', hready⟩

/-- A party that is to be destroyed was made. -/
theorem party?_ne_none (h : Coherent g₀ (.busy (.destroy id)) line s)
    (he : Graph.Extends s.graph s'.graph) : s'.graph.party? id ≠ none := by
  intro hp
  obtain ⟨n, hlined⟩ := h.lined
  cases hlined with
  | destroy _ hid rest =>
    have hlt := Nat.lt_of_lt_of_le hid (Nat.le_trans rest.le he.length)
    exact absurd hlt (Nat.not_lt.mpr (List.getElem?_eq_none_iff.mp hp))

/-- A batch that stands behind another in line has greater numbers. -/
theorem behind_add {b' : Batch} (h : Coherent g₀ (.busy (.add b)) line s)
    (hb : .add b' ∈ line) :
    ∃ n m k k', b.Ready s n m ∧ b'.Ready s k k' ∧ m ≤ k := by
  obtain ⟨n, hlined⟩ := h.lined
  cases hlined with
  | add _ ready rest =>
    obtain ⟨k, k', hle, ready'⟩ := rest.ready hb
    exact ⟨_, _, k, k', ready, ready', hle⟩

/-- A batch that stands behind a destruction was made after the party to be destroyed. -/
theorem behind_destroy {b' : Batch} (h : Coherent g₀ (.busy (.destroy id)) line s)
    (hb : .add b' ∈ line) : ∃ k k', b'.Ready s k k' ∧ id < k := by
  obtain ⟨n, hlined⟩ := h.lined
  cases hlined with
  | destroy _ hid rest =>
    obtain ⟨k, k', hle, ready⟩ := rest.ready hb
    exact ⟨k, k', ready, Nat.lt_of_lt_of_le hid hle⟩

/-- The room that there is when an addition is not refused is still there at the end of its calls:
nobody but the agent takes any. -/
theorem room_family {hook : Hook} {targets : List PartyId} {calls : List DriverCall}
    (h : Coherent g₀ (.busy (.add b)) line s) (hr : s.batchRefusal b = none)
    (hw : (s.record (.passBegun hook targets)).Works calls s') :
    s'.graph.Room (b.family s'.graph) := by
  obtain ⟨n, m, ready⟩ := h.ready
  obtain ⟨new, hnew⟩ := hw.journal
  have he : Graph.Extends s.graph s'.graph := hw.graph_extends
  have spares : s.Spares s' n m :=
    (Spares.of_extends he ⟨new ++ [.passBegun hook targets], by simp [hnew]⟩).mono
      (Nat.zero_le n) ready.bound
  rw [ready.family_eq spares]
  exact (room_of_batchRefusal hr h.room ready).extend he h.sound fun id hid =>
    Nat.lt_of_lt_of_le (ready.mem_family_iff.mp hid).2 ready.bound

/-- A batch is put into the graph. What stands behind it in line has greater numbers. -/
theorem published (h : Coherent g₀ (.busy (.add b)) line s)
    (hroom : s.graph.Room (b.family s.graph)) : Coherent g₀ (.settled b) line (s.publish b) := by
  obtain ⟨n, hlined⟩ := h.lined
  have noted := noted_publish s b
  obtain ⟨new, hj, hg, -⟩ := noted.journal
  cases hlined with
  | @add _ k k' _ _ _ hn hb rest =>
    have hp := publishing_publish hb.fits h.sound hroom
    have spares := (spares_publish hb h.sound hroom).mono (Nat.le_of_lt hb.lt) (Nat.le_refl _)
    constructor
    case orderly => exact h.orderly.noted noted
    case graph => exact h.graph_after hj hg
    case sound => exact hp.sound
    case room => exact hp.room
    case lined =>
      rw [hp.length]
      exact ⟨k', rest.spared spares⟩

/-- A party is taken out of the graph. What stands behind it in line has greater numbers. -/
theorem removed {p : OwnedParty} (h : Coherent g₀ (.busy (.destroy id)) line s)
    (hp : s.graph.party? id = some p) : Coherent g₀ .free line (s.removeParty id p) := by
  obtain ⟨n, hlined⟩ := h.lined
  have noted := noted_removeParty s id p
  obtain ⟨new, hj, hg, -⟩ := noted.journal
  have alike := alike_removeParty s id p
  cases hlined with
  | @destroy _ k _ _ _ hn hid rest =>
    have spares := spares_removeParty h.sound hp hid
    constructor
    case orderly => exact h.orderly.noted noted
    case graph => exact h.graph_after hj hg
    case sound => exact (h.sound.without hp).alike alike
    case room => exact (h.room.without h.sound hp).alike alike
    case lined =>
      rw [alike.length, Graph.length_without]
      exact ⟨k, rest.spared spares⟩

end Coherent

/-- A new service has distinct names and no job in line. -/
theorem coherent_of_new {c : IdentityConfiguration} {place : DataPlace} (h : new c place = .ok s) :
    Coherent s.graph .free s.jobs s := by
  obtain ⟨r, hr, blank⟩ := blank_of_new h
  obtain ⟨-, -, hresolve⟩ := Except.exists_of_bind_eq_ok hr
  have hgraph := blank.graph
  constructor
  case orderly => exact blank.orderly
  case graph =>
    rw [blank.journal]
    rfl
  case sound =>
    rw [hgraph]
    exact Graph.sound_ofResolved (resolveRoot_proper hresolve)
  case room =>
    rw [hgraph]
    exact Graph.room_ofResolved (resolveRoot_nodup hresolve)
  case lined =>
    rw [blank.jobs]
    exact ⟨0, .nil (Nat.zero_le _)⟩

end Service

end PartyGraph
