import PartyGraph.Proofs.Agent.Order
import PartyGraph.Proofs.Graph.Declarations
import PartyGraph.Proofs.Graph.Fate
import PartyGraph.Service.Handling

/-!
# What a request does

Anyone may ask things of a service at any time, and drivers may while they are called. Every proof
about histories has to get past all that can be asked, so this module says once what that comes to:
`Service.Asked` has one case for each thing that a request may leave behind, and no proof elsewhere
opens `Service.request`.

## The shape of the cases

Most requests leave nothing that concerns parties. These are one case, `Asked.quiet`, and the
structure `Service.Quiet` lists what such a request keeps. An addition that is checked leaves no
more than itself among those to be enlisted, and `Service.Admits` says what still holds of it when
its turn comes. Then an addition that is enlisted is split from a stranded one, for which parties
are made although the mailbox has been closed; the parties of the latter are never heard of again.

What drivers do in a pass is `Service.Works`: requests in any number, and between them calls of
drivers, which are listed in order.

## Main definitions

* `Graph.after`: a graph after the entries of a journal.
* `Service.Noted`: only the graph has changed, as the journal tells.
* `Service.Orderly`: when there is a loop, and when the list of drivers is closed.
* `Service.Quiet`, `Service.Admits`, `Service.Asked`: what a request does.
* `DriverCall`, `Service.Works`: what drivers do in a pass.
* `Service.Adds`: what entries are made.

## Main results

* `Service.asked_request`, `Service.asked_attach`: the cases are all.
* `Service.Asked.journal`, `Service.Asked.graph_extends`: what a request does to the graph.
* `Service.Works.induction`: what requests and calls keep, a pass keeps.
-/

namespace PartyGraph

/-! ### Entries -/

/-- What an entry says of the graph: only changes of it say anything. -/
def Entry.act : Entry → Graph → Graph
  | .changed c, g => g.apply c
  | _, g => g

/-- A graph after the entries of a journal, the latest of which comes first. -/
def Graph.after (g : Graph) (journal : List Entry) : Graph := journal.foldr Entry.act g

theorem Graph.after_append (g : Graph) (new old : List Entry) :
    g.after (new ++ old) = (g.after old).after new :=
  List.foldr_append

/-- Whether an entry is one of those that requests make. -/
def Entry.OfRequest : Entry → Prop
  | .changed (.make _) | .changed (.doom _) | .changed (.attach _ _ _) => True
  | .initialized _ | .askedToDestroy _ _ | .askedToAdd _ _ _ _ => True
  | _ => False

/-- Whether an entry is one of those that are made when parties are put into the graph or taken out
of it, or when an outcome is answered. -/
def Entry.OfHandling : Entry → Prop
  | .changed _ | .told _ _ | .answered _ _ => True
  | _ => False

/-- The parties that an entry tells to have been made for an addition. -/
def Entry.made : Entry → List PartyId
  | .askedToAdd _ _ made _ => made
  | _ => []

/-- What requests do to the graph concerns only the parties that are made. -/
theorem Graph.extends_after {g : Graph} {new : List Entry} (h : ∀ e ∈ new, e.OfRequest) :
    Extends g (g.after new) := by
  induction new with
  | nil => exact .refl g
  | cons e new ih =>
    rw [List.forall_mem_cons] at h
    refine (ih h.2).trans ?_
    show Extends (g.after new) (e.act (g.after new))
    cases e with
    | changed c =>
      cases c with
      | make ps => exact extends_make _ ps
      | doom id => exact .of_alike (alike_doom _ id)
      | attach p type value => exact .of_alike (alike_attach _ p type value)
      | insert | remove | clear | complete => exact absurd h.1 id
    | _ => exact .refl _

/-- No entry takes a party back. -/
theorem Graph.forward_after (g : Graph) (new : List Entry) : Graph.Forward g (g.after new) := by
  induction new with
  | nil => exact .refl g
  | cons e new ih =>
    cases e with
    | changed c => exact ih.trans (Graph.forward_apply _ c)
    | _ => exact ih

/-- Whether whoever has a configuration in a graph has it in another one too. -/
def Graph.Remembers (g g' : Graph) : Prop :=
  ∀ p c, g.configuration? p = some c → g'.configuration? p = some c

theorem Graph.Remembers.refl (g : Graph) : Remembers g g := fun _ _ h => h

/-- Configurations are fixed when parties are made. -/
theorem Graph.remembers_apply (g : Graph) (c : GraphChange) : Remembers g (g.apply c) := by
  intro p conf h
  cases p with
  | root => exact (congrArg some (Graph.root_apply g c)).trans h
  | owned id =>
    obtain ⟨q, hq, rfl⟩ := Option.map_eq_some_iff.mp h
    have fixed : OwnedParty.Fixed OwnedParty.configuration :=
      ⟨fun _ _ => rfl, fun _ _ => rfl, fun _ _ => rfl⟩
    exact Option.map_eq_some_iff.mpr (fixed.apply hq c)

theorem Graph.remembers_after (g : Graph) (new : List Entry) : Remembers g (g.after new) := by
  induction new with
  | nil => exact .refl g
  | cons e new ih =>
    cases e with
    | changed c => exact fun p conf h => Graph.remembers_apply _ c p conf (ih p conf h)
    | _ => exact ih

/-- Drivers that are missing stay so when one more is expected. -/
theorem Registry.isComplete_expect {r : Registry} (featureName : String)
    (h : r.isComplete = false) : (r.expect featureName).isComplete = false := by
  show (r.expected ++ [featureName]).all r.has = false
  rw [List.all_append, show r.expected.all r.has = false from h, Bool.false_and]

namespace Service

/-- The jobs that wait for the agent of the service. -/
def jobs (s : Service) : List IdentityJob := s.agent.jobs

/-! ### Fields after an entry -/

section Fields

variable (s : Service) (e : Entry) (c : GraphChange)

@[simp] theorem graph_record : (s.record e).graph = s.graph := rfl
@[simp] theorem agent_record : (s.record e).agent = s.agent := rfl
@[simp] theorem jobs_record : (s.record e).jobs = s.jobs := rfl
@[simp] theorem journal_record : (s.record e).journal = e :: s.journal := rfl

@[simp] theorem graph_change : (s.change c).graph = s.graph.apply c := rfl

end Fields

/-- Nothing but the graph has changed, and the journal has entries of this alone. -/
def Noted (s s' : Service) : Prop :=
  ∃ new, s' = { s with graph := s.graph.after new, journal := new ++ s.journal } ∧
    ∀ e ∈ new, e.OfHandling

namespace Noted

variable {s s' s'' : Service}

theorem refl (s : Service) : s.Noted s := ⟨[], rfl, by simp⟩

theorem change (h : s.Noted s') (c : GraphChange) : s.Noted (s'.change c) := by
  obtain ⟨new, rfl, hall⟩ := h
  exact ⟨.changed c :: new, rfl, List.forall_mem_cons.mpr ⟨trivial, hall⟩⟩

theorem tell (h : s.Noted s') (channel : Channel) (signal : Signal) :
    s.Noted (s'.tell channel signal) := by
  obtain ⟨new, rfl, hall⟩ := h
  exact ⟨.told channel signal :: new, rfl, List.forall_mem_cons.mpr ⟨trivial, hall⟩⟩

theorem tellOfRemote (h : s.Noted s') (owner : PartyRef) (e : PartyEvent) :
    s.Noted (s'.tellOfRemote owner e) :=
  (h.tell _ _).tell _ _

theorem answer (h : s.Noted s') (ticket : Nat) (outcome : Except IdentityError Unit) :
    s.Noted (s'.answer ticket outcome) := by
  obtain ⟨new, rfl, hall⟩ := h
  exact ⟨.answered ticket outcome :: new, rfl, List.forall_mem_cons.mpr ⟨trivial, hall⟩⟩

theorem foldl {α : Type} {f : Service → α → Service}
    (hf : ∀ s' a, s.Noted s' → s.Noted (f s' a)) (h : s.Noted s') (l : List α) :
    s.Noted (l.foldl f s') := by
  induction l generalizing s' with
  | nil => exact h
  | cons a l ih => exact ih (hf _ a h)

theorem journal (h : s.Noted s') : ∃ new, s'.journal = new ++ s.journal ∧
    s'.graph = s.graph.after new ∧ ∀ e ∈ new, e.OfHandling := by
  obtain ⟨new, rfl, hall⟩ := h
  exact ⟨new, rfl, rfl, hall⟩

theorem agent (h : s.Noted s') : s'.agent = s.agent := by
  obtain ⟨new, rfl, -⟩ := h
  rfl

theorem registry (h : s.Noted s') : s'.registry = s.registry := by
  obtain ⟨new, rfl, -⟩ := h
  rfl

theorem dropped (h : s.Noted s') : s'.dropped = s.dropped := by
  obtain ⟨new, rfl, -⟩ := h
  rfl

theorem tickets (h : s.Noted s') : s'.tickets = s.tickets := by
  obtain ⟨new, rfl, -⟩ := h
  rfl

theorem jobs (h : s.Noted s') : s'.jobs = s.jobs := by
  obtain ⟨new, rfl, -⟩ := h
  rfl

theorem initialization (h : s.Noted s') : s'.initialization = s.initialization := by
  obtain ⟨new, rfl, -⟩ := h
  rfl

end Noted

/-! ### Additions that have been checked -/

/-- What an addition that has passed the checks keeps, whatever happens before it is enlisted: `c`
is the configuration of the owner, and `parties` are those of the increment. Of the other checks, by
then the owner may be going, names may be taken and the service may have been stopped. -/
structure Admits (s : Service) (owner : PartyRef) (increment : PartySection)
    (c : PartyConfiguration) (parties : Parties) : Prop where
  configured : s.graph.configuration? owner = some c
  resolved : resolveIncrement c increment = .ok parties
  rootOnly : parties.tenants ≠ [] → owner = .root
  nonempty : parties.isEmpty = false

theorem Admits.remembered {s s' : Service} {owner : PartyRef} {increment : PartySection}
    {c : PartyConfiguration} {parties : Parties} (h : s.Admits owner increment c parties)
    (hg : Graph.Remembers s.graph s'.graph) : s'.Admits owner increment c parties :=
  ⟨hg _ _ h.configured, h.resolved, h.rootOnly, h.nonempty⟩

/-! ### Order of a start -/

/-- Before a start is attempted there is no loop, or there is none any more because the service was
let go. After that the list of drivers is closed. At all times what is to be enlisted has been
checked. -/
structure Orderly (s : Service) : Prop where
  unstarted : s.agent.startAttempted = false →
    s.agent.loop = .absent ∨ s.agent.loop = .exited ∧ s.dropped = true
  frozen : s.agent.startAttempted = true → s.registry.frozen = true
  checked : ∀ a ∈ s.admissions, s.Admits a.owner a.increment a.configuration a.parties

namespace Orderly

variable {s s' : Service}

/-- What is to be enlisted stays checked while graphs change. -/
theorem checked_of_remembers (h : s.Orderly) (hg : Graph.Remembers s.graph s'.graph)
    (hadm : s'.admissions ⊆ s.admissions) :
    ∀ a ∈ s'.admissions, s'.Admits a.owner a.increment a.configuration a.parties :=
  fun a ha => (h.checked a (hadm ha)).remembered hg

theorem step (h : s.Orderly) (ha : s'.agent.startAttempted = s.agent.startAttempted)
    (hl : s'.agent.loop = s.agent.loop) (hf : s'.registry.frozen = s.registry.frozen)
    (hd : s'.dropped = s.dropped) (hg : Graph.Remembers s.graph s'.graph)
    (hadm : s'.admissions ⊆ s.admissions) : s'.Orderly where
  unstarted h' := by
    rw [hl, hd]
    exact h.unstarted (ha ▸ h')
  frozen h' := by
    rw [hf]
    exact h.frozen (ha ▸ h')
  checked := h.checked_of_remembers hg hadm

theorem congr (h : s.Orderly) (ha : s'.agent.startAttempted = s.agent.startAttempted)
    (hl : s'.agent.loop = s.agent.loop) (hf : s'.registry.frozen = s.registry.frozen)
    (hd : s'.dropped = s.dropped) (hg : s'.graph = s.graph)
    (hadm : s'.admissions = s.admissions) : s'.Orderly :=
  h.step ha hl hf hd (hg ▸ .refl _) (hadm ▸ List.Subset.refl _)

theorem record (h : s.Orderly) (e : Entry) : (s.record e).Orderly :=
  h.congr rfl rfl rfl rfl rfl rfl

theorem noted (h : s.Orderly) (h' : s.Noted s') : s'.Orderly := by
  obtain ⟨new, rfl, -⟩ := h'
  exact h.step rfl rfl rfl rfl (Graph.remembers_after s.graph new) (List.Subset.refl _)

end Orderly

theorem Orderly.attempted {s : Service} (h : s.Orderly) (hl : s.agent.loop ≠ .absent)
    (hl' : s.agent.loop ≠ .exited) : s.agent.startAttempted = true := by
  cases ha : s.agent.startAttempted with
  | true => rfl
  | false =>
    rcases h.unstarted ha with h | h
    · exact absurd h hl
    · exact absurd h.1 hl'

/-! ### Requests that leave the parties alone -/

/-- Nothing happened that concerns parties: the graph, the journal and the jobs that wait are the
same. The loop may have been started, for the first time. -/
structure Quiet (s s' : Service) : Prop where
  graph : s'.graph = s.graph
  journal : s'.journal = s.journal
  tickets : s'.tickets = s.tickets
  dropped : s'.dropped = s.dropped
  jobs : s'.jobs = s.jobs
  root : s'.registry.root = s.registry.root
  drivers : s'.registry.drivers = s.registry.drivers
  frozen : s.registry.frozen = true → s'.registry.frozen = true
  agent : Agent.Requested (!s.dropped) s.agent s'.agent
  loop : s'.agent.loop = s.agent.loop ∨
    s.agent.loop = .absent ∧ s'.agent.loop = .fresh ∧ s'.agent.startAttempted = true
  attempted : s'.agent.startAttempted = s.agent.startAttempted ∨
    s'.agent.startAttempted = true ∧ s'.registry.frozen = true
  stopsLeft : s'.agent.stopsLeft ≤ s.agent.stopsLeft
  /-- No driver that is missing is registered, and more may be expected. -/
  incomplete : s.registry.isComplete = false → s'.registry.isComplete = false
  /-- More additions may have been checked. -/
  checked : ∀ a ∈ s'.admissions, a ∈ s.admissions ∨
    s.Admits a.owner a.increment a.configuration a.parties

namespace Quiet

variable {s s' : Service}

/-- The agent, the list of drivers and what concerns parties are the same. -/
theorem of_eq (graph : s'.graph = s.graph) (journal : s'.journal = s.journal)
    (tickets : s'.tickets = s.tickets) (dropped : s'.dropped = s.dropped)
    (agent : s'.agent = s.agent) (root : s'.registry.root = s.registry.root)
    (drivers : s'.registry.drivers = s.registry.drivers)
    (frozen : s'.registry.frozen = s.registry.frozen)
    (incomplete : s.registry.isComplete = false → s'.registry.isComplete = false)
    (checked : ∀ a ∈ s'.admissions, a ∈ s.admissions ∨
      s.Admits a.owner a.increment a.configuration a.parties) : s.Quiet s' :=
  ⟨graph, journal, tickets, dropped, congrArg Agent.jobs agent, root, drivers,
    fun h => frozen.trans h, agent ▸ .refl _ _, .inl (by rw [agent]), .inl (by rw [agent]),
    Nat.le_of_eq (by rw [agent]), incomplete, checked⟩

theorem refl (s : Service) : s.Quiet s :=
  of_eq rfl rfl rfl rfl rfl rfl rfl rfl id fun _ => .inl

theorem orderly (h : s.Quiet s') (hs : s.Orderly) : s'.Orderly where
  unstarted ha := by
    have ha' : s.agent.startAttempted = false := by
      rcases h.attempted with h | h
      · rw [← h, ha]
      · rw [h.1] at ha
        cases ha
    rcases h.loop with hl | ⟨-, -, hl⟩
    · rw [hl, h.dropped]
      exact hs.unstarted ha'
    · rw [hl] at ha
      cases ha
  frozen ha := by
    rcases h.attempted with h' | h'
    · exact h.frozen (hs.frozen (h' ▸ ha))
    · exact h'.2
  checked a ha := by
    have admits : s.Admits a.owner a.increment a.configuration a.parties :=
      (h.checked a ha).elim (hs.checked a) id
    exact admits.remembered (h.graph ▸ .refl _)

end Quiet

/-! ### Additions that are accepted -/

/-- The parties that are made for an addition. -/
def draft (s : Service) (owner : PartyRef) (c : PartyConfiguration) (parties : Parties) : Draft :=
  Draft.make s.graph.root owner c true s.graph.parties.length parties

/-- The numbers of these parties. -/
def draftIds (s : Service) (owner : PartyRef) (c : PartyConfiguration) (parties : Parties) :
    List PartyId :=
  List.range' s.graph.parties.length (s.draft owner c parties).parties.length

theorem AddShape.rootOnly_of_check {shape : AddShape} {owner : PartyRef} {name : String}
    {parties : Parties} (h : shape.check owner name parties = .ok ()) :
    parties.tenants ≠ [] → owner = .root := by
  intro hne
  unfold AddShape.check at h
  dsimp only at h
  split at h
  · cases h
  · next hno =>
    refine Decidable.byContradiction fun ho => hno ⟨?_, ho⟩
    exact List.length_pos_iff.mpr hne

/-- An addition of no parties is accepted without further checks, and an addition of some only as
long as the service is there. -/
theorem checkAddition_eq_ok {s : Service} {owner : PartyRef} {shape : AddShape}
    {increment : PartySection} {parties : Parties}
    (h : s.checkAddition owner shape increment = .ok parties) :
    parties.isEmpty = true ∨ s.dropped = false ∧ ∃ c, s.Admits owner increment c parties := by
  rw [checkAddition] at h
  split at h
  · cases h
  · next c hc =>
    split at h
    · cases h
    · next hgone =>
      split at h
      · cases h
      · next parties' hres =>
        split at h
        · cases h
        · next hcheck =>
          by_cases hempty : parties'.isEmpty = true
          · rw [if_pos hempty] at h
            cases h
            exact .inl hempty
          · rw [if_neg hempty] at h
            split at h
            · cases h
            · split at h
              · cases h
              · split at h
                · cases h
                · cases h
                  obtain ⟨hd, -⟩ : s.dropped = false ∧ s.graph.isLocal owner = true := by
                    simpa using hgone
                  exact .inr ⟨hd, c, hc, hres, AddShape.rootOnly_of_check hcheck,
                    by simpa using hempty⟩

/-! ### The cases -/

/-- Whether nothing is handled any more: the service is gone, or the loop of its agent has left. -/
def Over (s : Service) : Prop := s.dropped = true ∨ s.agent.loop = .exited

/-- `s'` is `s` after it was asked to give a job to its agent, with the answer. -/
inductive Posted (s : Service) (job : IdentityJob) : Except IdentityError Bool → Service → Prop
  | accepted (h : s.agent.isOpen = true) :
    Posted s job (.ok true) { s with agent := s.agent.send (.job job) }
  | refused (h : s.Over) : Posted s job (.error .agentStopped) s

/-- The first attempt to start is refused because drivers are missing, and that decides the
initialization. -/
structure Unready (s s' : Service) (i : Initialization) : Prop where
  present : s.dropped = false
  first : s.agent.startAttempted = false
  attempted : s'.agent.startAttempted = true
  absent : s'.agent.loop = .absent
  frozen : s'.registry.frozen = true
  incomplete : s'.registry.isComplete = false
  decided : i = .failed (.failed "expected feature drivers are missing")
  initialization : s'.initialization = i

/-- What a request does. -/
inductive Asked (s : Service) : Service → Prop
  /-- Nothing that concerns parties. -/
  | quiet {s' : Service} (h : s.Quiet s') (same : s'.initialization = s.initialization) :
    Asked s s'
  /-- It attempts a start while drivers are missing. -/
  | unready {s' : Service} (h : s.Quiet s') (i : Initialization) (refused : s.Unready s' i) :
    Asked s (s'.record (.initialized i))
  /-- It attaches a feature. -/
  | attached (p : PartyRef) (type value : String) : Asked s (s.change (.attach p type value))
  /-- It asks in vain for a destruction. -/
  | unmoved (id : PartyId) {answer : Except IdentityError Bool} (h : answer ≠ .ok true)
    (static : ∀ e p, answer = .error e → s.graph.party? id = some p → p.dynamic = false) :
    Asked s (s.record (.askedToDestroy id answer))
  /-- It asks for a destruction that was not requested before. -/
  | doomed {id : PartyId} {p : OwnedParty} {answer : Except IdentityError Bool} {s' : Service}
    (hp : s.graph.party? id = some p) (hd : p.dynamic = true) (ha : p.isDestroyed = false)
    (h : (s.change (.doom id)).Posted (.destroy id) answer s') :
    Asked s (s'.record (.askedToDestroy id answer))
  /-- It asks in vain for an addition. -/
  | refused (owner : PartyRef) (increment : PartySection) (e : IdentityError) :
    Asked s (s.record (.askedToAdd owner increment [] (.error e)))
  /-- It asks for an addition of no parties. -/
  | empty (owner : PartyRef) (increment : PartySection) :
    Asked s (s.record (.askedToAdd owner increment [] (.ok ⟨[], [], none⟩)))
  /-- It enlists an addition that has been checked, but the mailbox is closed. -/
  | stranded {owner : PartyRef} {increment : PartySection} {c : PartyConfiguration}
    {parties : Parties} {left : List Admission} (h : s.Admits owner increment c parties)
    (hleft : left ⊆ s.admissions) (hopen : s.agent.isOpen = false) (e : IdentityError) :
    Asked s (({ s with admissions := left }.change
        (.make (s.draft owner c parties).parties)).record
      (.askedToAdd owner increment (s.draftIds owner c parties) (.error e)))
  /-- It enlists an addition that has been checked, and the mailbox is open. -/
  | enlisted {owner : PartyRef} {increment : PartySection} {c : PartyConfiguration}
    {parties : Parties} {left : List Admission} (h : s.Admits owner increment c parties)
    (hleft : left ⊆ s.admissions) (hopen : s.agent.isOpen = true) :
    Asked s ({ s.change (.make (s.draft owner c parties).parties) with
        agent := s.agent.send (.job (.add ⟨owner, (s.draft owner c parties).remotes,
          (s.draft owner c parties).tenants, s.tickets⟩))
        admissions := left
        tickets := s.tickets + 1 }.record
      (.askedToAdd owner increment (s.draftIds owner c parties)
        (.ok ⟨(s.draft owner c parties).remotes, (s.draft owner c parties).tenants,
          some s.tickets⟩)))

section Cases

variable {s : Service}

theorem asked_start (hs : s.Orderly) : s.Asked s.start.2 := by
  rw [start]
  by_cases hd : s.dropped = true
  · rw [if_pos hd]
    exact .quiet (.refl s) rfl
  rw [if_neg hd]
  by_cases ha : s.agent.startAttempted = true
  · have same : s.agent.tryStart s.registry.isComplete s.now = s.agent := by
      rw [Agent.tryStart, if_pos ha]
    simp only [if_pos ha, same]
    split <;> exact .quiet (.refl s) rfl
  -- The first attempt: the list of drivers is closed, whatever comes of it.
  have hl : s.agent.loop = .absent := by
    rcases hs.unstarted (by simpa using ha) with h | h
    · exact h
    · exact absurd h.2 hd
  have started (approved : Bool) :
      Agent.Requested (!s.dropped) s.agent (s.agent.tryStart approved s.now) :=
    .move s.agent (m := .tryStart approved s.now) rfl fun _ => by simpa using hd
  by_cases hc : s.registry.isComplete = true
  · have hclose : s.closeRegistry = { s with registry := s.registry.freeze } := if_pos hc
    have hc' : s.registry.freeze.isComplete = true := hc
    have : s.Quiet { s with
        registry := s.registry.freeze
        agent := s.agent.tryStart s.registry.freeze.isComplete s.now } := by
      refine ⟨rfl, rfl, rfl, rfl, ?_, rfl, rfl, fun _ => rfl, started .., .inr ⟨hl, ?_, ?_⟩,
        .inr ⟨?_, rfl⟩, Agent.stopsLeft_tryStart_le .., id, fun _ => .inl⟩ <;>
        simp [jobs, Agent.jobs, Agent.tryStart, ha, hc']
    simp only [if_neg ha, hclose]
    split <;> exact .quiet this rfl
  · let i := Initialization.failed (.failed "expected feature drivers are missing")
    have hclose : s.closeRegistry
        = { s with registry := s.registry.freeze, initialization := i }.record
            (.initialized i) := if_neg hc
    have hc' : ¬ s.registry.freeze.isComplete = true := hc
    have hagent : s.agent.tryStart s.registry.freeze.isComplete s.now
        = { s.agent with startAttempted := true } := by
      rw [Agent.tryStart, if_neg ha, if_neg hc']
    have : s.Quiet { s with
        registry := s.registry.freeze
        initialization := i
        agent := s.agent.tryStart s.registry.freeze.isComplete s.now } := by
      refine ⟨rfl, rfl, rfl, rfl, ?_, rfl, rfl, fun _ => rfl, started .., .inl ?_,
        .inr ⟨?_, rfl⟩, Agent.stopsLeft_tryStart_le .., id, fun _ => .inl⟩ <;>
        simp [jobs, Agent.jobs, Agent.tryStart, ha, hc']
    simp only [if_neg ha, hclose]
    split <;> exact .unready this i ⟨by simpa using hd, by simpa using ha, by rw [hagent],
      by rw [hagent]; exact hl, rfl, by simpa using hc', rfl, rfl⟩

theorem asked_stop : s.Asked s.stop.2 := by
  rw [stop]
  by_cases hd : s.dropped = true
  · rw [if_pos hd]
    exact .quiet (.refl s) rfl
  rw [if_neg hd]
  obtain ⟨loop, jobs, attempted, stopsLeft⟩ := Agent.undisturbed_sendStop s.agent
  exact .quiet ⟨rfl, rfl, rfl, rfl, jobs, rfl, rfl, id, .sendStop _ s.agent, .inl loop,
    .inl attempted, stopsLeft, id, fun _ => .inl⟩ rfl

theorem asked_expect (featureName : String) :
    s.Asked { s with registry := s.registry.expect featureName } :=
  .quiet (.of_eq rfl rfl rfl rfl rfl rfl rfl rfl (Registry.isComplete_expect featureName)
    fun _ => .inl) rfl

theorem posted_postDestroy (id : PartyId) :
    s.Posted (.destroy id) (s.postDestroy id).1 (s.postDestroy id).2 := by
  rw [postDestroy, Agent.post]
  by_cases hd : s.dropped = true
  · rw [if_pos hd]
    exact .refused (.inl hd)
  · rw [if_neg hd]
    by_cases ho : s.agent.isOpen = true
    · rw [if_pos ho]
      exact .accepted ho
    · rw [if_neg ho]
      exact .refused (.inr (by simpa [Agent.isOpen_iff] using ho))

theorem asked_destroy (id : PartyId) : s.Asked (s.destroy id).2 := by
  rw [destroy, doom]
  cases hp : s.graph.party? id with
  | none => exact .unmoved id (by simp) (by simp [hp])
  | some p =>
    dsimp only
    by_cases hd : p.dynamic = true
    · rw [hd]
      by_cases ha : p.isDestroyed = true
      · rw [ha]
        exact .unmoved id (by simp) (by simp)
      · rw [if_neg (by simp), if_neg ha]
        exact .doomed hp hd (by simpa using ha) (posted_postDestroy id)
    · rw [if_pos (by simpa using hd)]
      exact .unmoved id (by simp) (by simpa [hp] using hd)

theorem asked_vet (owner : PartyRef) (shape : AddShape) (increment : PartySection) :
    s.Asked (s.vet owner shape increment).2 := by
  rw [vet]
  cases hcheck : s.checkAddition owner shape increment with
  | error e => exact .refused owner increment e
  | ok parties =>
    cases hc : s.graph.configuration? owner with
    | none => exact .refused owner increment .agentStopped
    | some c =>
      dsimp only
      by_cases hempty : parties.isEmpty = true
      · rw [if_pos hempty]
        exact .empty owner increment
      rw [if_neg hempty]
      obtain ⟨-, c', hadmits⟩ := (checkAddition_eq_ok hcheck).resolve_left hempty
      obtain rfl : c' = c := Option.some.inj (hadmits.configured.symm.trans hc)
      refine .quiet (.of_eq rfl rfl rfl rfl rfl rfl rfl rfl id fun a ha => ?_) rfl
      refine (List.mem_append.mp ha).imp_right fun ha => ?_
      obtain rfl := List.mem_singleton.mp ha
      exact hadmits

theorem postBatch_of_open (h : s.agent.isOpen = true) (a : Admission) :
    s.postBatch a = (.ok ⟨(s.draft a.owner a.configuration a.parties).remotes,
        (s.draft a.owner a.configuration a.parties).tenants, some s.tickets⟩,
      { s.change (.make (s.draft a.owner a.configuration a.parties).parties) with
        agent := s.agent.send (.job (.add ⟨a.owner,
          (s.draft a.owner a.configuration a.parties).remotes,
          (s.draft a.owner a.configuration a.parties).tenants, s.tickets⟩))
        tickets := s.tickets + 1 }) := by
  rw [postBatch, Agent.post, if_pos (show (s.change _).agent.isOpen = true from h)]
  rfl

theorem postBatch_of_closed (h : s.agent.isOpen = false) (a : Admission) :
    s.postBatch a = (.error .agentStopped,
      s.change (.make (s.draft a.owner a.configuration a.parties).parties)) := by
  have hno : ¬ s.agent.isOpen = true := ne_true_of_eq_false h
  rw [postBatch, Agent.post, if_neg (show ¬ (s.change _).agent.isOpen = true from hno)]
  rfl

/-- What is left to be enlisted does not matter to the addition that is. -/
theorem asked_postBatch {a : Admission} {left : List Admission}
    (h : s.Admits a.owner a.increment a.configuration a.parties) (hleft : left ⊆ s.admissions) :
    s.Asked (({ s with admissions := left }.postBatch a).2.record
      (.askedToAdd a.owner a.increment
        (List.range' s.graph.parties.length
          (({ s with admissions := left }.postBatch a).2.graph.parties.length
            - s.graph.parties.length))
        ({ s with admissions := left }.postBatch a).1)) := by
  have made : List.range' s.graph.parties.length
        ((s.graph.apply (.make (s.draft a.owner a.configuration a.parties).parties)).parties.length
          - s.graph.parties.length) = s.draftIds a.owner a.configuration a.parties := by
    simp [Graph.apply, draftIds]
  cases ho : s.agent.isOpen with
  | true =>
    have enlisted := Asked.enlisted h hleft ho
    rw [← made] at enlisted
    rw [postBatch_of_open (s := { s with admissions := left }) ho]
    exact enlisted
  | false =>
    have stranded := Asked.stranded h hleft ho .agentStopped
    rw [← made] at stranded
    rw [postBatch_of_closed (s := { s with admissions := left }) ho]
    exact stranded

theorem asked_enlist (hs : s.Orderly) (place : Nat) : s.Asked (s.enlist place).2 := by
  rw [enlist]
  cases ha : s.admissions[place]? with
  | none => exact .quiet (.refl s) rfl
  | some a =>
    exact asked_postBatch (hs.checked a (List.mem_of_getElem? ha)) (List.eraseIdx_subset)

/-- Nothing is left behind by an addition that is enlisted as soon as it has been checked. -/
theorem add_of_checked {owner : PartyRef} {shape : AddShape} {increment : PartySection}
    {parties : Parties} {c : PartyConfiguration}
    (hcheck : s.checkAddition owner shape increment = .ok parties)
    (hc : s.graph.configuration? owner = some c) (hne : parties.isEmpty = false) :
    s.add owner shape increment =
      let (answer, t) := s.postBatch ⟨owner, increment, c, parties⟩
      (answer, t.record (.askedToAdd owner increment
        (List.range' s.graph.parties.length
          (t.graph.parties.length - s.graph.parties.length)) answer)) := by
  have vetted : s.vet owner shape increment = (.ok (some s.admissions.length),
      { s with admissions := s.admissions ++ [⟨owner, increment, c, parties⟩] }) := by
    rw [vet, hcheck, hc]
    simp [hne]
  have here : (s.admissions ++ [(⟨owner, increment, c, parties⟩ : Admission)])[
      s.admissions.length]? = some ⟨owner, increment, c, parties⟩ := by simp
  have left : (s.admissions ++ [(⟨owner, increment, c, parties⟩ : Admission)]).eraseIdx
      s.admissions.length = s.admissions := by
    simp [List.eraseIdx_append_of_length_le]
  simp only [add, vetted, enlist, here, left]

/-- What is to be enlisted has been checked. -/
theorem checked_of_vet {owner : PartyRef} {shape : AddShape} {increment : PartySection}
    {place : Nat} (h : (s.vet owner shape increment).1 = .ok (some place)) :
    ∃ parties c, s.checkAddition owner shape increment = .ok parties ∧
      s.graph.configuration? owner = some c ∧ parties.isEmpty = false := by
  rw [vet] at h
  split at h
  · cases h
  · cases h
  · next parties c hcheck hc =>
    split at h
    · cases h
    · next hne => exact ⟨parties, c, hcheck, hc, by simpa using hne⟩

theorem asked_add (owner : PartyRef) (shape : AddShape) (increment : PartySection) :
    s.Asked (s.add owner shape increment).2 := by
  have vetted := asked_vet (s := s) owner shape increment
  rcases hvet : s.vet owner shape increment with ⟨_ | _ | place, t⟩
  · rw [hvet] at vetted
    rwa [add, hvet]
  · rw [hvet] at vetted
    rwa [add, hvet]
  · obtain ⟨parties, c, hcheck, hc, hne⟩ := checked_of_vet (congrArg Prod.fst hvet)
    obtain ⟨-, c', hadmits⟩ := (checkAddition_eq_ok hcheck).resolve_left (by simp [hne])
    obtain rfl : c' = c := Option.some.inj (hadmits.configured.symm.trans hc)
    rw [add_of_checked hcheck hc hne]
    exact asked_postBatch (a := ⟨owner, increment, c', parties⟩) hadmits (List.Subset.refl _)

/-- The cases are all. -/
theorem asked_request (hs : s.Orderly) (r : Request) : s.Asked (s.request r).2 := by
  cases r with
  | start => exact asked_start hs
  | stop => exact asked_stop
  | expect featureName => exact asked_expect featureName
  | destroy id => exact asked_destroy id
  | vet owner shape increment => exact asked_vet owner shape increment
  | enlist place => exact asked_enlist hs place
  | add owner shape increment => exact asked_add owner shape increment

theorem asked_attach (p : PartyRef) (type value : String) :
    s.Asked (s.attach p type value).2 := by
  rw [attach]
  split
  · exact .quiet (.refl s) rfl
  · split
    · exact .quiet (.refl s) rfl
    · exact .attached p type value

end Cases

/-! ### What every request keeps -/

namespace Asked

variable {s s' : Service}

theorem orderly (h : s.Asked s') (hs : s.Orderly) : s'.Orderly := by
  cases h with
  | quiet h => exact h.orderly hs
  | unready h i => exact (h.orderly hs).record _
  | unmoved | refused | empty => exact hs.record _
  | attached =>
    exact hs.step rfl rfl rfl rfl (Graph.remembers_apply _ _) (List.Subset.refl _)
  | doomed _ _ _ h =>
    cases h with
    | accepted =>
      exact hs.step (Agent.startAttempted_send ..) (Agent.loop_send ..) rfl rfl
        (Graph.remembers_apply _ _) (List.Subset.refl _)
    | refused => exact hs.step rfl rfl rfl rfl (Graph.remembers_apply _ _) (List.Subset.refl _)
  | stranded _ hleft => exact hs.step rfl rfl rfl rfl (Graph.remembers_apply _ _) hleft
  | enlisted _ hleft =>
    exact hs.step (Agent.startAttempted_send ..) (Agent.loop_send ..) rfl rfl
      (Graph.remembers_apply _ _) hleft

theorem dropped (h : s.Asked s') : s'.dropped = s.dropped := by
  cases h with
  | quiet h => exact h.dropped
  | unready h i => exact h.dropped
  | doomed _ _ _ h => cases h <;> rfl
  | attached | unmoved | refused | empty | stranded | enlisted => rfl

/-- No request registers a driver. -/
theorem drivers (h : s.Asked s') : s'.registry.drivers = s.registry.drivers := by
  cases h with
  | quiet h => exact h.drivers
  | unready h i => exact h.drivers
  | doomed _ _ _ h => cases h <;> rfl
  | attached | unmoved | refused | empty | stranded | enlisted => rfl

theorem root (h : s.Asked s') : s'.registry.root = s.registry.root := by
  cases h with
  | quiet h => exact h.root
  | unready h i => exact h.root
  | doomed _ _ _ h => cases h <;> rfl
  | attached | unmoved | refused | empty | stranded | enlisted => rfl

/-- To the agent nothing happens but requests, and it is not started once the service is gone. -/
theorem agent (h : s.Asked s') : Agent.Requested (!s.dropped) s.agent s'.agent := by
  cases h with
  | quiet h => exact h.agent
  | unready h i => exact h.agent
  | doomed _ _ _ h =>
    cases h with
    | accepted ho => exact .send ho _
    | refused => exact .refl _ _
  | enlisted _ _ ho => exact .send ho _
  | attached | unmoved | refused | empty | stranded => exact .refl _ _

theorem frozen (h : s.Asked s') (hf : s.registry.frozen = true) : s'.registry.frozen = true := by
  cases h with
  | quiet h => exact h.frozen hf
  | unready h i => exact h.frozen hf
  | doomed _ _ _ h => cases h <;> exact hf
  | attached | unmoved | refused | empty | stranded | enlisted => exact hf

/-- No request makes more stops possible. -/
theorem stopsLeft (h : s.Asked s') : s'.agent.stopsLeft ≤ s.agent.stopsLeft := by
  cases h with
  | quiet h => exact h.stopsLeft
  | unready h i => exact h.stopsLeft
  | doomed _ _ _ h =>
    cases h with
    | accepted => exact Agent.stopsLeft_send_le _ rfl
    | refused => exact Nat.le_refl _
  | enlisted => exact Agent.stopsLeft_send_le _ rfl
  | attached | unmoved | refused | empty | stranded => exact Nat.le_refl _

/-- A request moves the loop only to start it. -/
theorem loop_cases (h : s.Asked s') :
    s'.agent.loop = s.agent.loop ∨ s.agent.loop = .absent ∧ s'.agent.loop = .fresh := by
  cases h with
  | quiet h => exact h.loop.imp_right fun h => ⟨h.1, h.2.1⟩
  | unready h i => exact h.loop.imp_right fun h => ⟨h.1, h.2.1⟩
  | doomed _ _ _ h =>
    cases h with
    | accepted => exact .inl (Agent.loop_send ..)
    | refused => exact .inl rfl
  | enlisted => exact .inl (Agent.loop_send ..)
  | attached | unmoved | refused | empty | stranded => exact .inl rfl

/-- The entries that a request makes tell what it does to the graph. -/
theorem journal (h : s.Asked s') : ∃ new, s'.journal = new ++ s.journal ∧
    s'.graph = s.graph.after new ∧ ∀ e ∈ new, e.OfRequest := by
  cases h with
  | quiet h => exact ⟨[], h.journal, h.graph, by simp⟩
  | unready h i => exact ⟨[.initialized i], by simp [h.journal], h.graph, by simp [Entry.OfRequest]⟩
  | attached p type value => exact ⟨[_], rfl, rfl, by simp [Entry.OfRequest]⟩
  | unmoved => exact ⟨[_], rfl, rfl, by simp [Entry.OfRequest]⟩
  | @doomed id _ answer _ _ _ _ h =>
    refine ⟨[.askedToDestroy id answer, .changed (.doom id)], ?_, ?_, by simp [Entry.OfRequest]⟩
    · cases h <;> rfl
    · cases h <;> rfl
  | refused => exact ⟨[_], rfl, rfl, by simp [Entry.OfRequest]⟩
  | empty => exact ⟨[_], rfl, rfl, by simp [Entry.OfRequest]⟩
  | stranded => exact ⟨[_, _], rfl, rfl, by simp [Entry.OfRequest]⟩
  | enlisted => exact ⟨[_, _], rfl, rfl, by simp [Entry.OfRequest]⟩

/-- A request does nothing to the parties that were made before. -/
theorem graph_extends (h : s.Asked s') : Graph.Extends s.graph s'.graph := by
  obtain ⟨new, -, hgraph, hall⟩ := h.journal
  rw [hgraph]
  exact Graph.extends_after hall

/-- No request completes a destruction. -/
theorem isGone (h : s.Asked s') (id : PartyId) : s'.graph.isGone id = s.graph.isGone id := by
  cases h with
  | quiet h => rw [h.graph]
  | unready h i => exact congrArg (·.isGone id) h.graph
  | attached p type value => exact Graph.isGone_apply _ (by simp) (by simp) id
  | unmoved | refused | empty => rfl
  | doomed _ _ _ h => cases h <;> exact Graph.isGone_doom ..
  | stranded | enlisted => exact Graph.isGone_make Draft.alive_make

end Asked

end Service

/-! ### What drivers do in a pass -/

/-- A call of a driver. -/
structure DriverCall where
  position : Nat
  hook : Hook
  target : Option PartyId
deriving DecidableEq, Repr

/-- The entry of a call. -/
def DriverCall.entry (c : DriverCall) : Entry := .called c.position c.hook c.target

namespace Service

/-- `Works s calls s'`: between `s` and `s'` the drivers were called as `calls` tells, and besides
that there was nothing but requests. -/
inductive Works (s : Service) : List DriverCall → Service → Prop
  | refl : Works s [] s
  | ask {calls : List DriverCall} {s₁ s₂ : Service} (h : Works s calls s₁) (h' : s₁.Asked s₂) :
    Works s calls s₂
  | call {calls : List DriverCall} {s₁ : Service} (h : Works s calls s₁) (c : DriverCall) :
    Works s (calls ++ [c]) (s₁.record c.entry)

namespace Works

variable {s s' : Service} {calls : List DriverCall}

/-- What requests and calls keep, a pass keeps. -/
theorem induction {P : Service → Prop} (asks : ∀ s s', P s → s.Asked s' → P s')
    (called : ∀ s c, P s → P (s.record (DriverCall.entry c))) (h : s.Works calls s') (hs : P s) :
    P s' := by
  induction h with
  | refl => exact hs
  | ask _ h' ih => exact asks _ _ ih h'
  | call _ c ih => exact called _ c ih

theorem orderly (h : s.Works calls s') (hs : s.Orderly) : s'.Orderly :=
  h.induction (fun _ _ hs h => h.orderly hs) (fun _ _ hs => hs.record _) hs

theorem dropped (h : s.Works calls s') : s'.dropped = s.dropped :=
  h.induction (P := fun t => t.dropped = s.dropped) (fun _ _ ht h => h.dropped.trans ht)
    (fun _ _ ht => ht) rfl

theorem drivers (h : s.Works calls s') : s'.registry.drivers = s.registry.drivers :=
  h.induction (P := fun t => t.registry.drivers = s.registry.drivers)
    (fun _ _ ht h => h.drivers.trans ht) (fun _ _ ht => ht) rfl

theorem root (h : s.Works calls s') : s'.registry.root = s.registry.root :=
  h.induction (P := fun t => t.registry.root = s.registry.root)
    (fun _ _ ht h => h.root.trans ht) (fun _ _ ht => ht) rfl

theorem agent (h : s.Works calls s') : Agent.Requested (!s.dropped) s.agent s'.agent := by
  refine (h.induction (P := fun t => t.dropped = s.dropped ∧
    Agent.Requested (!s.dropped) s.agent t.agent) (fun t t' ht h => ⟨h.dropped.trans ht.1, ?_⟩)
    (fun _ _ ht => ht) ⟨rfl, .refl _ _⟩).2
  exact ht.2.trans (ht.1 ▸ h.agent)

theorem frozen (h : s.Works calls s') (hf : s.registry.frozen = true) :
    s'.registry.frozen = true :=
  h.induction (P := fun t => t.registry.frozen = true) (fun _ _ ht h => h.frozen ht)
    (fun _ _ ht => ht) hf

theorem stopsLeft (h : s.Works calls s') : s'.agent.stopsLeft ≤ s.agent.stopsLeft :=
  h.induction (P := fun t => t.agent.stopsLeft ≤ s.agent.stopsLeft)
    (fun _ _ ht h => Nat.le_trans h.stopsLeft ht) (fun _ _ ht => ht) (Nat.le_refl _)

theorem loop_cases (h : s.Works calls s') :
    s'.agent.loop = s.agent.loop ∨ s.agent.loop = .absent ∧ s'.agent.loop = .fresh := by
  refine h.induction (P := fun t => t.agent.loop = s.agent.loop ∨
    s.agent.loop = .absent ∧ t.agent.loop = .fresh) (fun t t' ht h => ?_) (fun _ _ ht => ht)
    (.inl rfl)
  rcases h.loop_cases with h | ⟨h, h'⟩
  · rwa [h]
  · rcases ht with ht | ⟨-, ht⟩
    · exact .inr ⟨ht ▸ h, h'⟩
    · rw [ht] at h
      cases h

/-- Once there is a loop, a pass does not move it. -/
theorem loop (h : s.Works calls s') (hl : s.agent.loop ≠ .absent) :
    s'.agent.loop = s.agent.loop :=
  h.loop_cases.resolve_right fun h => hl h.1

/-- The journal only grows. -/
theorem journal (h : s.Works calls s') : ∃ new, s'.journal = new ++ s.journal := by
  refine h.induction (P := fun t => ∃ new, t.journal = new ++ s.journal) (fun t t' ht h => ?_)
    (fun t c ht => ?_) ⟨[], rfl⟩
  · obtain ⟨new, hnew⟩ := ht
    obtain ⟨new', hnew', -⟩ := h.journal
    exact ⟨new' ++ new, by rw [hnew', hnew, List.append_assoc]⟩
  · obtain ⟨new, hnew⟩ := ht
    exact ⟨c.entry :: new, by rw [journal_record, hnew, List.cons_append]⟩

/-- Nor does a pass do anything to the parties that were made before. -/
theorem graph_extends (h : s.Works calls s') : Graph.Extends s.graph s'.graph :=
  h.induction (P := fun t => Graph.Extends s.graph t.graph)
    (fun _ _ ht h => ht.trans h.graph_extends) (fun _ _ ht => ht) (.refl _)

theorem isGone (h : s.Works calls s') (id : PartyId) : s'.graph.isGone id = s.graph.isGone id :=
  h.induction (P := fun t => t.graph.isGone id = s.graph.isGone id)
    (fun _ _ ht h => (h.isGone id).trans ht) (fun _ _ ht => ht) rfl

end Works

/-! ### Entries of a kind -/

/-- What is read off a journal entry by entry goes on with what the next entry tells. -/
theorem filterMap_journal_cons {α : Type} (f : Entry → Option α) (e : Entry)
    (journal : List Entry) :
    (e :: journal).reverse.filterMap f = journal.reverse.filterMap f ++ (f e).toList := by
  cases h : f e <;> simp [h]

/-- Entries that tell nothing of it leave it as it is. -/
theorem filterMap_journal_append {α : Type} {f : Entry → Option α} {new : List Entry}
    (h : ∀ e ∈ new, f e = none) (journal : List Entry) :
    (new ++ journal).reverse.filterMap f = journal.reverse.filterMap f := by
  have hnone : new.reverse.filterMap f = [] := by simpa using h
  rw [List.reverse_append, List.filterMap_append, hnone, List.append_nil]

/-- All entries that are made between `s` and `s'` have a property. -/
def Adds (s : Service) (p : Entry → Prop) (s' : Service) : Prop :=
  ∃ new, s'.journal = new ++ s.journal ∧ ∀ e ∈ new, p e

namespace Adds

variable {s s' s'' : Service} {p q : Entry → Prop}

theorem refl (s : Service) : s.Adds p s := ⟨[], rfl, by simp⟩

theorem trans (h : s.Adds p s') (h' : s'.Adds p s'') : s.Adds p s'' := by
  obtain ⟨new, hj, hall⟩ := h
  obtain ⟨new', hj', hall'⟩ := h'
  exact ⟨new' ++ new, by rw [hj', hj, List.append_assoc], List.forall_mem_append.mpr ⟨hall', hall⟩⟩

theorem record (h : s.Adds p s') {e : Entry} (he : p e) : s.Adds p (s'.record e) := by
  obtain ⟨new, hj, hall⟩ := h
  exact ⟨e :: new, congrArg (e :: ·) hj, List.forall_mem_cons.mpr ⟨he, hall⟩⟩

theorem mono (h : s.Adds p s') (hp : ∀ e, p e → q e) : s.Adds q s' := by
  obtain ⟨new, hj, hall⟩ := h
  exact ⟨new, hj, fun e he => hp e (hall e he)⟩

theorem change (h : s.Adds p s') {c : GraphChange} (hc : p (.changed c)) :
    s.Adds p (s'.change c) :=
  h.record hc

theorem tellOfRemote (h : s.Adds p s') (told : ∀ channel signal, p (.told channel signal))
    (owner : PartyRef) (e : PartyEvent) : s.Adds p (s'.tellOfRemote owner e) :=
  (h.record (told _ _)).record (told _ _)

theorem foldl {α : Type} {f : Service → α → Service}
    (hf : ∀ s' a, s.Adds p s' → s.Adds p (f s' a)) (h : s.Adds p s') (l : List α) :
    s.Adds p (l.foldl f s') := by
  induction l generalizing s' with
  | nil => exact h
  | cons a l ih => exact ih (hf _ a h)

end Adds

theorem Asked.adds {s s' : Service} {p : Entry → Prop} (h : s.Asked s')
    (request : ∀ e : Entry, e.OfRequest → p e) : s.Adds p s' := by
  obtain ⟨new, hj, -, hall⟩ := h.journal
  exact ⟨new, hj, fun e he => request e (hall e he)⟩

theorem Noted.adds {s s' : Service} {p : Entry → Prop} (h : s.Noted s')
    (handling : ∀ e : Entry, e.OfHandling → p e) : s.Adds p s' := by
  obtain ⟨new, hj, -, hall⟩ := h.journal
  exact ⟨new, hj, fun e he => handling e (hall e he)⟩

theorem Works.adds {s s' : Service} {p : Entry → Prop} {calls : List DriverCall}
    (h : s.Works calls s') (request : ∀ e : Entry, e.OfRequest → p e)
    (call : ∀ c : DriverCall, p c.entry) : s.Adds p s' :=
  h.induction (P := fun t => s.Adds p t) (fun _ _ ht ha => ht.trans (ha.adds request))
    (fun _ c ht => ht.record (call c)) (.refl s)

end Service

end PartyGraph
