import PartyGraph.Proofs.Agent.Mailbox
import PartyGraph.Proofs.Service.Passes

/-!
# What a move does

A history of a service is a list of moves. As `Service.Asked` does for requests, `Service.Handled`
says once what handling a call of the agent comes to and `Service.Moved` what a move comes to, and a
proof about histories is an induction over moves with these cases.

A move in which the agent handles a call is told from all others by `Service.handling?`, which also
gives the service as the handler finds it: the message is taken and noted in the journal, and
nothing is done for it yet.

## Main definitions

* `Service.Handled`: what handling a call does.
* `Service.handling?`: the call that is handled in a move, and the service that the handler finds.
* `Service.Moved`: what a move does.
* `Service.Later`: what comes after.

## Main results

* `Service.addBatch_cases`: an addition is refused, fails or succeeds.
* `Service.handled_handle`, `Service.moved_move`: the cases are all.
* `Service.play_induction`, `Service.moved_induction`: what every move keeps holds after any
  history.
* `Service.later_play`: the journal goes on and tells what becomes of the graph.
-/

namespace PartyGraph

/-- What is decided by the pass at the start. -/
def Initialization.ofSetUp : Except ActionError Unit → Initialization
  | .ok () => succeeded
  | .error e => failed e

namespace Service

variable {s s' : Service}

/-! ### Handling -/

/-- An addition is refused at once, or fails in its pass, or succeeds. -/
theorem addBatch_cases (hs : s.Orderly) (b : Batch) :
    (∃ e, s.batchRefusal b = some e ∧ s.addBatch b = (.error e, s)) ∨
      s.batchRefusal b = none ∧
        ((∃ e s₁, s.addBatch b = (.error e, s₁) ∧
            (s.record (.passBegun .setupDynamic b.parties)).Works (s.batchTour b) s₁) ∨
          ∃ s₁ s₂, s.addBatch b = (.ok (), s₂) ∧
            (s.record (.passBegun .setupDynamic b.parties)).Works (s.batchTour b) s₁ ∧
            (s₁.publish b).Works [] s₂) := by
  rw [addBatch]
  cases hr : s.batchRefusal b with
  | some e => exact .inl ⟨e, rfl, rfl⟩
  | none =>
    refine .inr ⟨rfl, ?_⟩
    rcases setUpDynamic_cases hs b with ⟨⟨e, he⟩, works⟩ | ⟨hok, s₁, works, works'⟩
    · refine .inl ⟨.setupFailed e, (s.setUpDynamic b).2, ?_, works⟩
      rw [show s.setUpDynamic b = (.error e, (s.setUpDynamic b).2) from Prod.ext he rfl]
    · refine .inr ⟨s₁, (s.setUpDynamic b).2, ?_, works, works'⟩
      rw [show s.setUpDynamic b = (.ok (), (s.setUpDynamic b).2) from Prod.ext hok rfl]

theorem setUpDynamic_of_addBatch {b : Batch} (h : (s.addBatch b).1 = .ok ()) :
    (s.setUpDynamic b).1 = .ok () := by
  rw [addBatch] at h
  split at h
  · cases h
  · split at h
    · next heq => rw [heq]
    · cases h

/-- A party with what is known of it taken out of the graph. -/
def removeParty (s : Service) (id : PartyId) (p : OwnedParty) : Service :=
  if p.isTenant then s.removeTenant id else s.removeRemote id p.owner

/-- What handling a call does, where `s` is the service as the handler finds it. -/
inductive Handled (s : Service) : Agent.Call IdentityJob → Service → Prop
  /-- The service is gone and nobody waits for an outcome. -/
  | idle {c : Agent.Call IdentityJob} (hd : s.dropped = true) (hc : ∀ b, c ≠ .job (.add b)) :
    Handled s c s
  /-- The drivers are called at the start. -/
  | started {s₁ : Service} (hd : s.dropped = false)
    (works : (s.record (.passBegun .setup [])).Works (s.tour .setup none) s₁)
    (i : Initialization) (decided : i = .ofSetUp s.setUp.1) :
    Handled s .start ({ s₁ with initialization := i }.record (.initialized i))
  /-- A heartbeat is told. -/
  | beat (hd : s.dropped = false) (count : Nat) :
    Handled s (.heartbeat count) (s.tell .heartbeat (.beat count))
  /-- The drivers are called at the end. -/
  | stopped {s₁ : Service} (hd : s.dropped = false)
    (works : (s.record (.passBegun .teardown [])).Works (s.tour .teardown none).reverse s₁) :
    Handled s .stop s₁
  /-- The service is gone, but someone waits for the outcome of an addition. -/
  | orphaned (hd : s.dropped = true) (b : Batch) :
    Handled s (.job (.add b)) (s.answer b.ticket (.error .agentStopped))
  /-- An addition is refused. -/
  | refused {b : Batch} {e : IdentityError} (hd : s.dropped = false)
    (hr : s.batchRefusal b = some e) (hb : s.addBatch b = (.error e, s)) :
    Handled s (.job (.add b)) (s.answer b.ticket (.error e))
  /-- An addition fails. -/
  | failed {b : Batch} {e : IdentityError} {s₁ : Service} (hd : s.dropped = false)
    (hr : s.batchRefusal b = none) (hb : s.addBatch b = (.error e, s₁))
    (works : (s.record (.passBegun .setupDynamic b.parties)).Works (s.batchTour b) s₁) :
    Handled s (.job (.add b)) (s₁.answer b.ticket (.error e))
  /-- An addition succeeds. -/
  | added {b : Batch} {s₁ s₂ : Service} (hd : s.dropped = false)
    (hr : s.batchRefusal b = none) (hb : s.addBatch b = (.ok (), s₂))
    (works : (s.record (.passBegun .setupDynamic b.parties)).Works (s.batchTour b) s₁)
    (after : (s₁.publish b).Works [] s₂) :
    Handled s (.job (.add b)) (s₂.answer b.ticket (.ok ()))
  /-- A party that was destroyed before is to be destroyed. -/
  | gone {id : PartyId} (hd : s.dropped = false) (hg : s.graph.isGone id = true) :
    Handled s (.job (.destroy id)) s
  /-- A party that was never made is to be destroyed. -/
  | missing {id : PartyId} {s₁ : Service} (hd : s.dropped = false)
    (hg : s.graph.isGone id = false)
    (works : (s.record (.passBegun .teardownDynamic [id])).Works
      (s.tour .teardownDynamic (some id)).reverse s₁)
    (hp : s₁.graph.party? id = none) :
    Handled s (.job (.destroy id)) s₁
  /-- A party is destroyed. -/
  | destroyed {id : PartyId} {s₁ : Service} {p : OwnedParty} (hd : s.dropped = false)
    (hg : s.graph.isGone id = false)
    (works : (s.record (.passBegun .teardownDynamic [id])).Works
      (s.tour .teardownDynamic (some id)).reverse s₁)
    (hp : s₁.graph.party? id = some p) :
    Handled s (.job (.destroy id)) (s₁.removeParty id p)

theorem handled_destroyParty (hs : s.Orderly) (hd : s.dropped = false) (id : PartyId) :
    s.Handled (.job (.destroy id)) (s.destroyParty id) := by
  rw [destroyParty]
  by_cases hg : s.graph.isGone id = true
  · rw [if_pos hg]
    exact .gone hd hg
  rw [if_neg hg]
  have works := works_tearDownDynamic hs id
  dsimp only
  split
  · next hp => exact .missing hd (by simpa using hg) works hp
  · next p hp => exact .destroyed hd (by simpa using hg) works hp

theorem handled_addBatch (hs : s.Orderly) (hd : s.dropped = false) (b : Batch) :
    s.Handled (.job (.add b)) ((s.addBatch b).2.answer b.ticket (s.addBatch b).1) := by
  rcases addBatch_cases hs b with
    ⟨e, hr, hb⟩ | ⟨hr, ⟨e, s₁, hb, works⟩ | ⟨s₁, s₂, hb, works, after⟩⟩
  · rw [hb]
    exact .refused hd hr hb
  · rw [hb]
    exact .failed hd hr hb works
  · rw [hb]
    exact .added hd hr hb works after

/-- The cases are all. -/
theorem handled_handle (hs : s.Orderly) (c : Agent.Call IdentityJob) :
    s.Handled c (s.handle c) := by
  unfold handle
  cases hd : s.dropped with
  | true =>
    cases c with
    | job j =>
      cases j with
      | add b => exact .orphaned hd b
      | destroy id => exact .idle hd (by simp)
    | start | heartbeat | stop => exact .idle hd (by simp)
  | false =>
    cases c with
    | start =>
      have h := Handled.started hd (works_setUp hs) (.ofSetUp s.setUp.1) rfl
      cases hr : s.setUp.1 <;> simpa [decideInitialization, Initialization.ofSetUp, hr] using h
    | job j =>
      cases j with
      | add b => exact handled_addBatch hs hd b
      | destroy id => exact handled_destroyParty hs hd id
    | heartbeat count => exact .beat hd count
    | stop => exact .stopped hd (works_tearDown hs)

/-! ### Moves -/

/-- The call that the agent handles in a move, if it does, and the service that the handler
finds. -/
def handling? (s : Service) : Move → Option (Service × Agent.Call IdentityJob)
  | .deliver =>
    match s.agent.take with
    | some (.call c, agent) => some ({ s with agent }.record (.handling c), c)
    | _ => none
  | _ => none

/-- What a move does. The index tells the call that is handled in it, if any. -/
inductive Moved (s : Service) : Option (Service × Agent.Call IdentityJob) → Service → Prop
  /-- There are requests, any number of them. -/
  | works {s' : Service} (h : s.Works [] s') : Moved s none s'
  /-- A driver is registered, after requests that were made meanwhile. -/
  | installed {s₁ : Service} (h : s.Works [] s₁) (hf : s₁.registry.frozen = false) (d : Driver) :
    Moved s none
      { s₁ with registry := { s₁.registry with drivers := s₁.registry.drivers ++ [d] } }
  /-- The service is let go, after it was started. -/
  | released (hd : s.dropped = false) (hl : s.agent.loop ≠ .absent) :
    Moved s none { s with dropped := true, agent := s.agent.release }
  /-- The service is let go before it was started, and its mailbox is dropped. -/
  | abandoned (hd : s.dropped = false) (hl : s.agent.loop = .absent) :
    Moved s none ({ s with dropped := true, agent := s.agent.release }.answerDropped s.jobs)
  /-- The loop of the agent leaves, and its mailbox is dropped. -/
  | exited {a : Agent IdentityJob} (h : s.agent.Exits s.jobs a) :
    Moved s none ({ s with agent := a }.answerDropped s.jobs)
  /-- The agent handles a call. -/
  | handled {c : Agent.Call IdentityJob} {a : Agent IdentityJob} {s₁ : Service}
    (h : s.agent.Takes c a) (h' : ({ s with agent := a }.record (.handling c)).Handled c s₁) :
    Moved s (some ({ s with agent := a }.record (.handling c), c))
      { s₁ with agent := s₁.agent.finish }

theorem works_requests (hs : s.Orderly) (rs : List Request) :
    s.Works [] (rs.foldl (fun s r => (s.request r).2) s) := by
  have go {t : Service} (h : s.Works [] t) :
      s.Works [] (rs.foldl (fun s r => (s.request r).2) t) := by
    induction rs generalizing t with
    | nil => exact h
    | cons r rs ih => exact ih (h.ask (asked_request (h.orderly hs) r))
  exact go .refl

theorem moved_register (hs : s.Orderly) (typeName : String) (allowedByDefault : Bool)
    (meanwhile : List Request) (behaviour : Binding → HookCall → DriverScript) :
    s.Moved none (s.register typeName allowedByDefault meanwhile behaviour).2 := by
  rw [register]
  split
  · exact .works .refl
  · next binding hbind =>
    have works := works_requests hs meanwhile
    dsimp only
    split
    · exact .works works
    · next registry hinstall =>
      rw [Registry.install, Registry.refusal] at hinstall
      by_cases hf : (meanwhile.foldl (fun s r => (s.request r).2) s).registry.frozen = true
      · simp [hf] at hinstall
      · split at hinstall
        · cases hinstall
        · cases hinstall
          exact .installed works (by simpa using hf) _

theorem moved_passTo (now : Nat) : s.Moved none (s.passTo now) := by
  refine .works (.ask .refl (.quiet ?_ rfl))
  rw [passTo, Agent.tickAt]
  split
  · exact .of_eq rfl rfl rfl rfl rfl rfl rfl rfl id fun _ => .inl
  · split
    · obtain ⟨loop, jobs, attempted, stopsLeft⟩ := Agent.undisturbed_tick s.agent
      exact ⟨rfl, rfl, rfl, rfl, jobs, rfl, rfl, id, .tick _ s.agent, .inl loop, .inl attempted,
        stopsLeft, id, fun _ => .inl⟩
    · exact .of_eq rfl rfl rfl rfl rfl rfl rfl rfl id fun _ => .inl

theorem moved_drop : s.Moved none s.drop := by
  rw [drop]
  split
  · exact .works .refl
  next hkept =>
  have hd : s.dropped = false ∧ s.admissions = [] := by simpa using hkept
  cases hl : s.agent.loop with
  | absent => exact .abandoned hd.1 hl
  | fresh | waiting | calling | exited => exact .released hd.1 (by simp [hl])

theorem Orderly.taken (hs : s.Orderly) {c : Agent.Call IdentityJob} {a : Agent IdentityJob}
    (h : s.agent.Takes c a) : ({ s with agent := a }.record (.handling c)).Orderly := by
  have started : s.agent.startAttempted = true := by
    rcases h.before with ⟨hl, -⟩ | ⟨hl, -⟩ <;> exact hs.attempted (by simp [hl]) (by simp [hl])
  have ha : a.startAttempted = true := h.attempted.trans started
  exact ⟨fun h => absurd (ha.symm.trans h) (by simp), fun _ => hs.frozen started,
    hs.checked_of_remembers (.refl _) (List.Subset.refl _)⟩

theorem moved_deliver (hs : s.Orderly) : s.Moved (s.handling? .deliver) (s.deliver.getD s) := by
  rw [deliver, handling?]
  cases ht : s.agent.take with
  | none => exact .works .refl
  | some turn =>
    obtain ⟨turn, a⟩ := turn
    cases turn with
    | exit dropped =>
      have h := Agent.exits_of_take ht
      obtain rfl : dropped = s.jobs := h.dropped
      exact .exited h
    | call c =>
      have h := Agent.takes_of_take ht
      exact .handled h (handled_handle (hs.taken h) c)

/-- The cases are all. -/
theorem moved_move (hs : s.Orderly) (m : Move) : s.Moved (s.handling? m) (s.move m) := by
  cases m with
  | request r => exact .works (.ask .refl (asked_request hs r))
  | register typeName allowedByDefault meanwhile behaviour => exact moved_register hs ..
  | attach p type value => exact .works (.ask .refl (asked_attach p type value))
  | label name party =>
    exact .works (.ask .refl (.quiet (.of_eq rfl rfl rfl rfl rfl rfl rfl rfl id fun _ => .inl)
      rfl))
  | deliver => exact moved_deliver hs
  | passTo now => exact moved_passTo now
  | drop => exact moved_drop

/-! ### Histories -/

theorem noted_answerDropped (s : Service) (jobs : List IdentityJob) :
    s.Noted (s.answerDropped jobs) :=
  (Noted.refl s).foldl
    (fun _ job h => by
      cases job with
      | add b => exact h.answer _ _
      | destroy id => exact h)
    jobs

/-- All that is noted when a mailbox is dropped is answers. -/
theorem adds_answerDropped {p : Entry → Prop} (answered : ∀ t o, p (.answered t o)) (s : Service)
    (jobs : List IdentityJob) : s.Adds p (s.answerDropped jobs) := by
  induction jobs generalizing s with
  | nil => exact .refl s
  | cons j jobs ih =>
    cases j with
    | add b => exact ((Adds.refl s).record (answered _ _)).trans (ih _)
    | destroy id => exact ih s

theorem noted_removeParty (s : Service) (id : PartyId) (p : OwnedParty) :
    s.Noted (s.removeParty id p) := by
  rw [removeParty]
  split
  · refine Noted.change (Noted.tell (Noted.foldl (fun _ _ h => ?_) ?_ _) _ _) _
    · exact (h.tellOfRemote _ _).change _
    · exact ((Noted.refl s).change _).change _
  · exact (((Noted.refl s).change _).tellOfRemote _ _).change _

theorem adds_removeParty {q : Entry → Prop} (changed : ∀ c, q (.changed c))
    (told : ∀ channel signal, q (.told channel signal)) (s : Service) (id : PartyId)
    (p : OwnedParty) : s.Adds q (s.removeParty id p) := by
  have left : s.Adds q (s.change (.remove id)) := (Adds.refl s).change (changed _)
  rw [removeParty]
  split
  · refine Adds.change (Adds.record (Adds.foldl (fun _ _ h => ?_) ?_ _) (told _ _)) (changed _)
    · exact (h.tellOfRemote told _ _).change (changed _)
    · exact left.change (changed _)
  · exact (left.tellOfRemote told _ _).change (changed _)

/-- What handling a call leaves as it was. -/
structure Kept (s s' : Service) : Prop where
  orderly : s'.Orderly
  agent : Agent.Requested (!s.dropped) s.agent s'.agent
  loop : s'.agent.loop = s.agent.loop
  root : s'.registry.root = s.registry.root
  drivers : s'.registry.drivers = s.registry.drivers
  frozen : s.registry.frozen = true → s'.registry.frozen = true
  dropped : s'.dropped = s.dropped
  stopsLeft : s'.agent.stopsLeft ≤ s.agent.stopsLeft

namespace Kept

variable {s₁ s₂ : Service}

theorem refl (hs : s.Orderly) : s.Kept s :=
  ⟨hs, .refl _ _, rfl, rfl, rfl, id, rfl, Nat.le_refl _⟩

theorem works {calls : List DriverCall} (h : s.Kept s₁) (h' : s₁.Works calls s₂)
    (hl : s.agent.loop ≠ .absent) : s.Kept s₂ where
  orderly := h'.orderly h.orderly
  agent := h.agent.trans (h.dropped ▸ h'.agent)
  loop := (h'.loop (h.loop ▸ hl)).trans h.loop
  root := h'.root.trans h.root
  drivers := h'.drivers.trans h.drivers
  frozen hf := h'.frozen (h.frozen hf)
  dropped := h'.dropped.trans h.dropped
  stopsLeft := Nat.le_trans h'.stopsLeft h.stopsLeft

theorem noted (h : s.Kept s₁) (h' : s₁.Noted s₂) : s.Kept s₂ where
  orderly := h.orderly.noted h'
  agent := by rw [h'.agent]; exact h.agent
  loop := by rw [h'.agent, h.loop]
  root := by rw [h'.registry, h.root]
  drivers := by rw [h'.registry, h.drivers]
  frozen hf := by rw [h'.registry, h.frozen hf]
  dropped := h'.dropped.trans h.dropped
  stopsLeft := by rw [h'.agent]; exact h.stopsLeft

theorem record (h : s.Kept s₁) (e : Entry) : s.Kept (s₁.record e) :=
  ⟨h.orderly.record e, h.agent, h.loop, h.root, h.drivers, h.frozen, h.dropped,
    h.stopsLeft⟩

end Kept

theorem Handled.kept {c : Agent.Call IdentityJob} (h : s.Handled c s') (hs : s.Orderly)
    (hl : s.agent.loop ≠ .absent) : s.Kept s' := by
  have begun (e : Entry) : s.Kept (s.record e) := (Kept.refl hs).record e
  cases h with
  | idle | gone => exact .refl hs
  | started _ works i =>
    have h := (begun _).works works hl
    exact ⟨h.orderly.congr rfl rfl rfl rfl rfl rfl, h.agent, h.loop, h.root, h.drivers, h.frozen,
      h.dropped, h.stopsLeft⟩
  | beat | orphaned | refused => exact begun _
  | stopped _ works | missing _ _ works => exact (begun _).works works hl
  | failed _ _ _ works => exact ((begun _).works works hl).record _
  | added _ _ _ works after =>
    exact ((((begun _).works works hl).noted (noted_publish _ _)).works after hl).record _
  | destroyed _ _ works => exact ((begun _).works works hl).noted (noted_removeParty _ _ _)

/-- The order of a start is kept by every move. -/
theorem Moved.orderly {h? : Option (Service × Agent.Call IdentityJob)} (h : s.Moved h? s')
    (hs : s.Orderly) : s'.Orderly := by
  cases h with
  | works h => exact h.orderly hs
  | installed h hf d => exact (h.orderly hs).congr rfl rfl rfl rfl rfl rfl
  | released hd hl =>
    obtain ⟨hl', -, ha, -⟩ := Agent.undisturbed_release hl
    refine ⟨fun h => ?_, fun h => hs.frozen (ha ▸ h),
      hs.checked_of_remembers (.refl _) (List.Subset.refl _)⟩
    rcases hs.unstarted (ha ▸ h) with h | h
    · exact absurd h hl
    · exact .inr ⟨hl'.trans h.1, rfl⟩
  | abandoned hd hl =>
    obtain ⟨hl', -, ha⟩ := Agent.release_of_absent hl
    refine Orderly.noted (s := { s with dropped := true, agent := s.agent.release })
      ⟨fun _ => .inr ⟨hl', rfl⟩, fun h => hs.frozen (ha ▸ h),
        hs.checked_of_remembers (.refl _) (List.Subset.refl _)⟩ (noted_answerDropped _ _)
  | @exited a h =>
    refine Orderly.noted (s := { s with agent := a }) ⟨fun ha => ?_, fun ha => ?_,
      hs.checked_of_remembers (.refl _) (List.Subset.refl _)⟩ (noted_answerDropped _ _)
    · rcases hs.unstarted (h.attempted ▸ ha) with hl | ⟨hl, -⟩ <;> simp [h.before] at hl
    · exact hs.frozen (h.attempted ▸ ha)
  | @handled c a s₁ h h' =>
    have kept := h'.kept (hs.taken h) (by simp [h.loop])
    have hl₁ : s₁.agent.loop = .calling c := kept.loop.trans h.loop
    have started : s₁.agent.startAttempted = true :=
      kept.orderly.attempted (by simp [hl₁]) (by simp [hl₁])
    exact ⟨fun h => by simp [started] at h, fun _ => kept.orderly.frozen started,
      kept.orderly.checked_of_remembers (.refl _) (List.Subset.refl _)⟩

/-! ### The journal goes on -/

/-- A service comes after another one: its journal goes on, and tells what became of the graph. -/
def Later (s s' : Service) : Prop :=
  ∃ new, s'.journal = new ++ s.journal ∧ s'.graph = s.graph.after new

namespace Later

variable {s₁ s₂ : Service}

theorem refl (s : Service) : s.Later s := ⟨[], rfl, rfl⟩

theorem trans (h : s.Later s₁) (h' : s₁.Later s₂) : s.Later s₂ := by
  obtain ⟨new, hj, hg⟩ := h
  obtain ⟨new', hj', hg'⟩ := h'
  exact ⟨new' ++ new, by rw [hj', hj, List.append_assoc], by rw [hg', hg, Graph.after_append]⟩

/-- What is noted besides. -/
theorem record (h : s.Later s₁) {e : Entry} (he : e.act s₁.graph = s₁.graph) :
    s.Later (s₁.record e) :=
  h.trans ⟨[e], rfl, he.symm⟩

theorem grows (h : s.Later s') : s.journal <:+ s'.journal := by
  obtain ⟨new, hj, -⟩ := h
  exact ⟨new, hj.symm⟩

/-- Nobody comes back. -/
theorem forward (h : s.Later s') : Graph.Forward s.graph s'.graph := by
  obtain ⟨new, -, hg⟩ := h
  exact hg ▸ Graph.forward_after _ new

end Later

theorem Noted.later (h : s.Noted s') : s.Later s' := by
  obtain ⟨new, hj, hg, -⟩ := h.journal
  exact ⟨new, hj, hg⟩

theorem Asked.later (h : s.Asked s') : s.Later s' := by
  obtain ⟨new, hj, hg, -⟩ := h.journal
  exact ⟨new, hj, hg⟩

theorem Works.later {calls : List DriverCall} (h : s.Works calls s') : s.Later s' :=
  h.induction (P := s.Later) (fun _ _ ht h => ht.trans h.later) (fun _ _ ht => ht.record rfl)
    (.refl s)

theorem Handled.later {c : Agent.Call IdentityJob} (h : s.Handled c s') : s.Later s' := by
  have worked {hook : Hook} {targets : List PartyId} {calls : List DriverCall} {s₁ : Service}
      (hw : (s.record (.passBegun hook targets)).Works calls s₁) : s.Later s₁ :=
    ((Later.refl s).record rfl).trans hw.later
  cases h with
  | idle | gone => exact .refl s
  | beat | orphaned | refused => exact (Later.refl s).record rfl
  | stopped _ works | missing _ _ works => exact worked works
  | started _ works | failed _ _ _ works => exact (worked works).record rfl
  | added _ _ _ works after =>
    exact (((worked works).trans (noted_publish _ _).later).trans after.later).record rfl
  | destroyed _ _ works => exact (worked works).trans (noted_removeParty _ _ _).later

theorem Moved.later {h? : Option (Service × Agent.Call IdentityJob)} (h : s.Moved h? s') :
    s.Later s' := by
  cases h with
  | works hw | installed hw => exact hw.later
  | released => exact .refl s
  | abandoned =>
    exact (noted_answerDropped { s with dropped := true, agent := s.agent.release } _).later
  | @exited a => exact (noted_answerDropped { s with agent := a } _).later
  | handled _ hc => exact ((Later.refl s).record rfl).trans hc.later

/-- A service to which nothing has happened yet, with the graph of a resolved tree. -/
structure Blank (s : Service) (r : ResolvedRoot) : Prop where
  graph : s.graph = Graph.ofResolved r
  agent : ∃ name period, Agent.new name period = .ok s.agent
  root : s.registry.root = r.root
  drivers : s.registry.drivers = []
  loop : s.agent.loop = .absent
  attempted : s.agent.startAttempted = false
  jobs : s.jobs = []
  stopsLeft : s.agent.stopsLeft = 1
  dropped : s.dropped = false
  admissions : s.admissions = []
  tickets : s.tickets = 0
  journal : s.journal = []

theorem blank_of_new {c : IdentityConfiguration} {place : DataPlace} (h : new c place = .ok s) :
    ∃ r, c.resolve = .ok r ∧ s.Blank r := by
  rw [new] at h
  split at h
  · cases h
  · cases h
  · cases h
  · next r period root hr _ _ =>
    split at h
    · cases h
    · next a ha =>
      cases h
      have hnew := Agent.new_eq_ok ha
      exact ⟨r, hr, rfl, ⟨_, _, ha⟩, rfl, rfl, by rw [hnew], by rw [hnew],
        by rw [jobs, hnew]; rfl, by rw [hnew]; rfl, rfl, rfl, rfl, rfl⟩

/-- The configuration that says nothing is that of a service. -/
theorem exists_new_default : ∃ s, new .default ⟨"/home", none⟩ = .ok s := ⟨_, rfl⟩

theorem Blank.orderly {r : ResolvedRoot} (h : s.Blank r) : s.Orderly :=
  ⟨fun _ => .inl h.loop, fun ha => absurd (h.attempted.symm.trans ha) (by simp),
    by simp [h.admissions]⟩

@[simp] theorem play_concat (s : Service) (moves : List Move) (m : Move) :
    s.play (moves ++ [m]) = (s.play moves).move m := by
  simp [play]

/-- What every move keeps holds after any history. -/
theorem play_induction {P : Service → Prop} (hs : P s) (keeps : ∀ s m, P s → P (s.move m))
    (moves : List Move) : P (s.play moves) := by
  induction moves generalizing s with
  | nil => exact hs
  | cons m moves ih => exact ih (keeps s m hs)

theorem play_append (s : Service) (moves more : List Move) :
    s.play (moves ++ more) = (s.play moves).play more := by
  simp [play]

/-- What is kept in all cases of a move holds after any history. -/
theorem moved_induction {P : Service → Prop} (ho : s.Orderly) (hs : P s)
    (keeps : ∀ t t' h?, t.Orderly → P t → t.Moved h? t' → P t') (moves : List Move) :
    P (s.play moves) := by
  refine (play_induction (P := fun t => t.Orderly ∧ P t) ⟨ho, hs⟩ (fun t m ht => ?_) moves).2
  have hm := moved_move ht.1 m
  exact ⟨hm.orderly ht.1, keeps t _ _ ht.1 ht.2 hm⟩

theorem orderly_play (ho : s.Orderly) (moves : List Move) : (s.play moves).Orderly :=
  moved_induction (P := Orderly) ho ho (fun _ _ _ _ ht hm => hm.orderly ht) moves

/-- A longer history comes after a shorter one. -/
theorem later_play (ho : s.Orderly) (moves : List Move) : s.Later (s.play moves) :=
  moved_induction (P := s.Later) ho (.refl s) (fun _ _ _ _ ht hm => ht.trans hm.later) moves

/-- The journal of a longer history goes on from that of a shorter one. -/
theorem journal_play_suffix (ho : s.Orderly) (moves more : List Move) :
    (s.play moves).journal <:+ (s.play (moves ++ more)).journal := by
  rw [play_append]
  exact (later_play (orderly_play ho moves) more).grows

end Service

end PartyGraph
