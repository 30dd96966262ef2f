import PartyGraph.Proofs.Service.CallOrder
import PartyGraph.Proofs.Service.Mentions

/-!
# The list of drivers

A registration has two halves. The name of the feature, the permission of the root and the position
are settled first; then the driver is made, which takes its time; and only then is it put at the end
of the list, if nothing speaks against it by then. What is settled first could be outdated. It is
not: registrations exclude each other, so the list is as long as it was, and all that can happen in
between is requests. They close the list, if anything, and then the registration is refused.

While a driver is made, the service goes through states that it could also come to without that
(`Service.foldl_request_play`). So what holds after every history holds then, too.

As long as no start was attempted, features are expected by nobody but those who ask the service,
since drivers are not called yet. So what the start is checked against can be read off the history.

## Main definitions

* `DriverRegistration`, `Service.registrations`: the registrations that were accepted.
* `Registry.Admits`: what a registration that is accepted adds.
* `Service.Listed`: what a move does to the list of drivers.
* `Service.expectations`: the features that were expected.
* `Registry.Enrolled`, `Service.DriverList`: what holds of the list.

## Main results

* `Service.listed_move`: the cases of a move.
* `Registry.Enrolled.admits`: one more driver.
* `Service.expected_play`, `Service.start_isOk_iff`: what the start is checked against.
-/

namespace PartyGraph

/-- A registration: the name of the type of the driver, and whether the root may have the feature by
default. -/
structure DriverRegistration where
  typeName : String
  allowedByDefault : Bool

/-- Whether a driver is told the name of the feature that its type brings, and the permission that
the configuration of the root gives. -/
structure Driver.MadeFor (d : Driver) (root : PartyConfiguration) (x : DriverRegistration) :
    Prop where
  featureName : featureNameOf x.typeName = .ok d.binding.featureName
  rootAllowed : d.binding.rootAllowed =
    root.isAllowedFeature d.binding.featureName x.allowedByDefault

/-- The name of a feature says something. -/
theorem featureNameOf_ne_empty {typeName featureName : String}
    (h : featureNameOf typeName = .ok featureName) : featureName ≠ "" := by
  unfold featureNameOf at h
  dsimp only at h
  split at h
  · next hsome =>
    obtain rfl := Except.ok.inj h
    intro hempty
    rw [Bool.and_eq_true, Bool.not_eq_true', List.isEmpty_eq_false_iff] at hsome
    exact hsome.2 (by simpa using congrArg String.toList hempty)
  · cases h

namespace Registry

variable {r r' : Registry} {d : Driver}

theorem has_iff (r : Registry) (featureName : String) : r.has featureName = true ↔
    ∃ d ∈ r.drivers, Text.eqIgnoringAsciiCase d.binding.featureName featureName = true := by
  simp [has, featureNames]

theorem isComplete_iff (r : Registry) : r.isComplete = true ↔ ∀ name ∈ r.expected,
    ∃ d ∈ r.drivers, Text.eqIgnoringAsciiCase d.binding.featureName name = true := by
  rw [isComplete, List.all_eq_true]
  exact forall₂_congr fun name _ => r.has_iff name

theorem refusal_eq_none {featureName : String} :
    r.refusal featureName = none ↔ r.frozen = false ∧ r.has featureName = false := by
  rw [refusal]
  cases r.frozen <;> cases r.has featureName <;> simp

/-- What a registration that is accepted adds to the list `r`: a driver `d` of its own feature, and
the list was not closed. -/
structure Admits (r : Registry) (x : DriverRegistration) (d : Driver) : Prop where
  madeFor : d.MadeFor r.root x
  position : d.binding.position = r.drivers.length
  fresh : r.has d.binding.featureName = false
  unfrozen : r.frozen = false

theorem bind_eq_ok {typeName : String} {allowedByDefault : Bool} {b : Binding}
    (h : r.bind typeName allowedByDefault = .ok b) (behaviour : HookCall → DriverScript) :
    r.Admits ⟨typeName, allowedByDefault⟩ ⟨b, behaviour⟩ := by
  obtain ⟨featureName, hname, h⟩ := Except.exists_of_bind_eq_ok h
  split at h
  · cases h
  · next hrefusal =>
    obtain rfl := Except.ok.inj h
    obtain ⟨unfrozen, fresh⟩ := refusal_eq_none.mp hrefusal
    exact ⟨⟨hname, rfl⟩, rfl, fresh, unfrozen⟩

theorem install_eq_ok (h : r.install d = .ok r') :
    r.frozen = false ∧ r' = { r with drivers := r.drivers ++ [d] } := by
  rw [install] at h
  split at h
  · cases h
  · next hrefusal => exact ⟨(refusal_eq_none.mp hrefusal).1, (Except.ok.inj h).symm⟩

/-- What the drivers of a list have to do with the registrations that were accepted. -/
structure Enrolled (r : Registry) (xs : List DriverRegistration) : Prop where
  /-- The driver of each registration stands in its place. -/
  registered : List.Forall₂ (fun x d => d.MadeFor r.root x) xs r.drivers
  /-- It knows its place. -/
  positions : ∀ (i : Nat) (d : Driver), r.drivers[i]? = some d → d.binding.position = i
  named : ∀ d ∈ r.drivers, d.binding.featureName ≠ ""
  /-- There is one driver of a feature. -/
  distinct : r.drivers.Pairwise fun d d' : Driver =>
    Text.eqIgnoringAsciiCase d.binding.featureName d'.binding.featureName = false

namespace Enrolled

variable {xs : List DriverRegistration}

theorem of_nil (h : r.drivers = []) : r.Enrolled [] := by
  constructor <;> rw [h]
  · exact .nil
  · exact fun _ _ hd => by cases hd
  · exact fun _ hd => absurd hd List.not_mem_nil
  · exact .nil

theorem congr (h : r.Enrolled xs) (root : r'.root = r.root) (drivers : r'.drivers = r.drivers) :
    r'.Enrolled xs := by
  constructor
  · rw [root, drivers]
    exact h.registered
  all_goals rw [drivers]
  · exact h.positions
  · exact h.named
  · exact h.distinct

/-- One more driver. -/
theorem admits (h : r.Enrolled xs) {x : DriverRegistration} (ha : r.Admits x d)
    (root : r'.root = r.root) (drivers : r'.drivers = r.drivers ++ [d]) :
    r'.Enrolled (xs ++ [x]) := by
  constructor
  case registered =>
    rw [root, drivers]
    exact List.rel_append h.registered (.cons ha.madeFor .nil)
  case positions =>
    rw [drivers]
    intro i d' hd
    rcases Nat.lt_or_ge i r.drivers.length with hi | hi
    · exact h.positions i d' (by rwa [List.getElem?_append_left hi] at hd)
    · rw [List.getElem?_append_right hi] at hd
      cases hlast : i - r.drivers.length with
      | zero =>
        rw [hlast] at hd
        obtain rfl := Option.some.inj hd
        rw [ha.position]
        omega
      | succ => simp [hlast] at hd
  case named =>
    rw [drivers, List.forall_mem_append, List.forall_mem_singleton]
    exact ⟨h.named, featureNameOf_ne_empty ha.madeFor.featureName⟩
  case distinct =>
    rw [drivers, List.pairwise_append]
    refine ⟨h.distinct, List.pairwise_singleton _ _, fun d' hd' d'' hd'' => ?_⟩
    rw [List.mem_singleton.mp hd'', ← Bool.not_eq_true]
    intro hsame
    have hhas := (r.has_iff _).mpr ⟨d', hd', hsame⟩
    exact Bool.false_ne_true (ha.fresh.symm.trans hhas)

end Enrolled

end Registry

/-- The feature that a request expects a driver of, if it does. -/
def Request.expectation? : Request → Option String
  | .expect featureName => some featureName
  | _ => none

namespace Service

variable {s s' : Service} {h? : Option (Service × Agent.Call IdentityJob)}

/-! ### What a move does to the list -/

/-- The registration that is accepted in a move, if one is. -/
def registration? (s : Service) : Move → Option DriverRegistration
  | .register typeName allowedByDefault meanwhile behaviour =>
    (s.register typeName allowedByDefault meanwhile behaviour).1.toOption.map fun _ =>
      ⟨typeName, allowedByDefault⟩
  | _ => none

/-- All registrations that are accepted in the course of moves, in order. -/
def registrations (s : Service) : List Move → List DriverRegistration
  | [] => []
  | m :: rest => (s.registration? m).toList ++ (s.move m).registrations rest

theorem registrations_concat (s : Service) (moves : List Move) (m : Move) :
    s.registrations (moves ++ [m]) =
      s.registrations moves ++ ((s.play moves).registration? m).toList := by
  induction moves generalizing s with
  | nil => simp [registrations, play]
  | cons m' moves ih => simp [registrations, ih, play]

/-- What a move does to the list of drivers, by the registration that is accepted in it. -/
inductive Listed (s s' : Service) : Option DriverRegistration → Prop
  | same (drivers : s'.registry.drivers = s.registry.drivers) : Listed s s' none
  | added {x : DriverRegistration} {d : Driver} (admits : s.registry.Admits x d)
    (unfrozen : s'.registry.frozen = false)
    (drivers : s'.registry.drivers = s.registry.drivers ++ [d]) : Listed s s' (some x)

/-- The agent takes no part in registrations. -/
theorem drivers_deliver (hs : s.Orderly) :
    (s.deliver.getD s).registry.drivers = s.registry.drivers := by
  rw [deliver]
  cases ht : s.agent.take with
  | none => rfl
  | some turn =>
    obtain ⟨turn, a⟩ := turn
    cases turn with
    | exit dropped =>
      exact congrArg Registry.drivers (noted_answerDropped { s with agent := a } _).registry
    | call c =>
      have taken := Agent.takes_of_take ht
      have orderly := hs.taken taken
      exact ((handled_handle orderly c).kept orderly (by simp [taken.loop])).drivers

theorem registry_drop (s : Service) : s.drop.registry = s.registry := by
  rw [drop]
  split
  · rfl
  · exact (noted_answerDropped ..).registry

/-- A registration that is accepted adds a driver, and one that is refused does not. -/
theorem listed_register (hs : s.Orderly) (typeName : String) (allowedByDefault : Bool)
    (meanwhile : List Request) (behaviour : Binding → HookCall → DriverScript) :
    s.Listed (s.register typeName allowedByDefault meanwhile behaviour).2
      (s.registration? (.register typeName allowedByDefault meanwhile behaviour)) := by
  rw [registration?, register]
  cases hbind : s.registry.bind typeName allowedByDefault with
  | error e => exact .same rfl
  | ok b =>
    -- Requests register nothing, so the place that was settled before is still the next one.
    have works := works_requests hs meanwhile
    generalize meanwhile.foldl (fun s r => (s.request r).2) s = s₁ at works ⊢
    dsimp only
    cases hinstall : s₁.registry.install ⟨b, behaviour b⟩ with
    | error e => exact .same works.drivers
    | ok r =>
      obtain ⟨unfrozen, rfl⟩ := Registry.install_eq_ok hinstall
      have admits := Registry.bind_eq_ok hbind (behaviour b)
      have drivers : s₁.registry.drivers ++ [⟨b, behaviour b⟩] =
          s.registry.drivers ++ [⟨b, behaviour b⟩] := by rw [works.drivers]
      exact Listed.added admits unfrozen drivers

/-- The cases are all. -/
theorem listed_move (hs : s.Orderly) (m : Move) : s.Listed (s.move m) (s.registration? m) := by
  cases m with
  | request r => exact .same (asked_request hs r).drivers
  | register typeName allowedByDefault meanwhile behaviour => exact listed_register hs ..
  | attach p type value => exact .same (asked_attach p type value).drivers
  | label | passTo => exact .same rfl
  | deliver => exact .same (drivers_deliver hs)
  | drop => exact .same (congrArg Registry.drivers s.registry_drop)

/-- What is closed stays closed. -/
theorem Moved.frozen (hm : s.Moved h? s') (ho : s.Orderly) (hf : s.registry.frozen = true) :
    s'.registry.frozen = true := by
  cases hm with
  | works hw => exact hw.frozen hf
  | installed hw => exact hw.frozen hf
  | released => exact hf
  | abandoned | exited => rwa [(noted_answerDropped ..).registry]
  | handled ht hh => exact (hh.kept (ho.taken ht) (by simp [ht.loop])).frozen hf

/-- A list that is closed does not change. -/
theorem drivers_of_frozen (ho : s.Orderly) (hf : s.registry.frozen = true) (moves : List Move) :
    (s.play moves).registry.frozen = true ∧
      (s.play moves).registry.drivers = s.registry.drivers := by
  induction moves using List.reverseRecOn with
  | nil => exact ⟨hf, rfl⟩
  | append_singleton moves m ih =>
    rw [play_concat]
    have orderly := orderly_play ho moves
    refine ⟨(moved_move orderly m).frozen orderly ih.1, ?_⟩
    have listed := listed_move orderly m
    generalize (s.play moves).registration? m = x? at listed
    cases listed with
    | same drivers => exact drivers.trans ih.2
    | added admits => exact absurd (ih.1.symm.trans admits.unfrozen) (by simp)

theorem enrolled_play {r : ResolvedRoot} (h : s.Blank r) (moves : List Move) :
    (s.play moves).registry.Enrolled (s.registrations moves) := by
  induction moves using List.reverseRecOn with
  | nil => exact .of_nil h.drivers
  | append_singleton moves m ih =>
    have orderly := orderly_play h.orderly moves
    have root := (moved_move orderly m).registryRoot orderly
    have listed := listed_move orderly m
    rw [play_concat, registrations_concat]
    generalize (s.play moves).registration? m = x? at listed ⊢
    cases listed with
    | same drivers => exact (List.append_nil _).symm ▸ ih.congr root drivers
    | added admits _ drivers => exact ih.admits admits root drivers

/-- A message finds a closed list. -/
theorem frozen_of_handling (ho : s.Orderly) {m : Move} {x : Service × Agent.Call IdentityJob}
    (h : s.handling? m = some x) : x.1.registry.frozen = true := by
  cases m with
  | deliver =>
    rw [handling?] at h
    split at h
    · next ht =>
      obtain rfl := Option.some.inj h
      rcases (Agent.takes_of_take ht).before with ⟨hl, -⟩ | ⟨hl, -⟩ <;>
        exact ho.frozen (ho.attempted (by simp [hl]) (by simp [hl]))
    · cases h
  | request | register | attach | label | passTo | drop => cases h

theorem frozen_of_mem_handled (ho : s.Orderly) {moves : List Move}
    {x : Service × Agent.Call IdentityJob} (hx : x ∈ s.handled moves) :
    x.1.registry.frozen = true := by
  induction moves generalizing s with
  | nil => exact absurd hx List.not_mem_nil
  | cons m moves ih =>
    rcases List.mem_append.mp hx with hx | hx
    · exact frozen_of_handling ho (Option.mem_toList.mp hx)
    · exact ih ((moved_move ho m).orderly ho) hx

/-! ### States in which drivers are made -/

/-- While a driver is made, the service is where requests alone could bring it. -/
theorem foldl_request_play (s : Service) (moves : List Move) (requests : List Request) :
    requests.foldl (fun s r => (s.request r).2) (s.play moves) =
      s.play (moves ++ requests.map .request) := by
  rw [play_append, play, play, List.foldl_map]
  rfl

/-! ### What the start is checked against -/

/-- The features that are expected in a move by those who ask the service. -/
def expectationsOf (s : Service) : Move → List String
  | .request r => r.expectation?.toList
  | .register typeName allowedByDefault meanwhile _ =>
    if (s.registry.bind typeName allowedByDefault).isOk then
      meanwhile.filterMap Request.expectation?
    else []
  | _ => []

/-- All features that are expected in the course of moves by those who ask the service. -/
def expectations (s : Service) : List Move → List String
  | [] => []
  | m :: rest => s.expectationsOf m ++ (s.move m).expectations rest

theorem expectations_concat (s : Service) (moves : List Move) (m : Move) :
    s.expectations (moves ++ [m]) = s.expectations moves ++ (s.play moves).expectationsOf m := by
  induction moves generalizing s with
  | nil => simp [expectations, play]
  | cons m' moves ih => simp [expectations, ih, play]

theorem closeRegistry_fields (s : Service) :
    s.closeRegistry.registry = s.registry.freeze ∧ s.closeRegistry.agent = s.agent := by
  rw [closeRegistry]
  dsimp only
  split <;> exact ⟨rfl, rfl⟩

theorem expected_start (s : Service) : s.start.2.registry.expected = s.registry.expected := by
  rw [start]
  split
  · rfl
  · have hclose : s.closeRegistry.registry.expected = s.registry.expected := by
      rw [s.closeRegistry_fields.1]
      rfl
    by_cases ha : s.agent.startAttempted = true
    · simp only [if_pos ha]
      split <;> rfl
    · simp only [if_neg ha]
      split <;> exact hclose

theorem registry_doom (s : Service) (id : PartyId) : (s.doom id).2.registry = s.registry := by
  have posted (t : Service) : (t.postDestroy id).2.registry = t.registry := by
    rw [postDestroy]
    split
    · rfl
    · split <;> rfl
  rw [doom]
  split
  · rfl
  · split
    · rfl
    · split
      · rfl
      · exact posted _

theorem registry_vet (s : Service) (owner : PartyRef) (shape : AddShape)
    (increment : PartySection) : (s.vet owner shape increment).2.registry = s.registry := by
  rw [vet]
  split
  · rfl
  · rfl
  · split <;> rfl

theorem registry_enlist (s : Service) (place : Nat) :
    (s.enlist place).2.registry = s.registry := by
  rw [enlist]
  split
  · rfl
  · dsimp only [postBatch]
    split <;> rfl

theorem registry_add (s : Service) (owner : PartyRef) (shape : AddShape)
    (increment : PartySection) : (s.add owner shape increment).2.registry = s.registry := by
  have vetted := s.registry_vet owner shape increment
  rw [add]
  revert vetted
  rcases s.vet owner shape increment with ⟨_ | _ | place, t⟩
  · exact id
  · exact id
  · exact (t.registry_enlist place).trans

theorem expected_request (s : Service) (r : Request) :
    (s.request r).2.registry.expected = s.registry.expected ++ r.expectation?.toList := by
  cases r with
  | start => exact s.expected_start.trans (List.append_nil _).symm
  | stop =>
    rw [request, stop]
    split <;> exact (List.append_nil _).symm
  | expect featureName => rfl
  | destroy id =>
    exact (congrArg Registry.expected (s.registry_doom id)).trans (List.append_nil _).symm
  | vet owner shape increment =>
    exact (congrArg Registry.expected (s.registry_vet owner shape increment)).trans
      (List.append_nil _).symm
  | enlist place =>
    exact (congrArg Registry.expected (s.registry_enlist place)).trans (List.append_nil _).symm
  | add owner shape increment =>
    exact (congrArg Registry.expected (s.registry_add owner shape increment)).trans
      (List.append_nil _).symm

theorem expected_requests (s : Service) (rs : List Request) :
    (rs.foldl (fun s r => (s.request r).2) s).registry.expected =
      s.registry.expected ++ rs.filterMap Request.expectation? := by
  induction rs generalizing s with
  | nil => exact (List.append_nil _).symm
  | cons r rs ih =>
    rw [List.foldl_cons, ih, expected_request, List.append_assoc]
    cases hr : r.expectation? <;> simp [hr]

theorem expected_register (s : Service) (typeName : String) (allowedByDefault : Bool)
    (meanwhile : List Request) (behaviour : Binding → HookCall → DriverScript) :
    (s.register typeName allowedByDefault meanwhile behaviour).2.registry.expected =
      s.registry.expected ++
        s.expectationsOf (.register typeName allowedByDefault meanwhile behaviour) := by
  rw [register, expectationsOf]
  cases s.registry.bind typeName allowedByDefault with
  | error e => exact (List.append_nil _).symm
  | ok b =>
    have requested := s.expected_requests meanwhile
    generalize meanwhile.foldl (fun s r => (s.request r).2) s = s₁ at requested ⊢
    dsimp only
    cases hinstall : s₁.registry.install ⟨b, behaviour b⟩ with
    | error e => exact requested
    | ok r =>
      obtain ⟨-, rfl⟩ := Registry.install_eq_ok hinstall
      exact requested

/-- Before a start is attempted, the features that are expected grow by those of a move. -/
theorem expected_move (hs : s.Orderly) (ha : s.agent.startAttempted = false) (m : Move) :
    (s.move m).registry.expected = s.registry.expected ++ s.expectationsOf m := by
  have same {t : Service} (h : t.registry = s.registry) :
      t.registry.expected = s.registry.expected ++ [] := by rw [h, List.append_nil]
  cases m with
  | request r => exact s.expected_request r
  | register typeName allowedByDefault meanwhile behaviour =>
    rw [move]
    exact s.expected_register typeName allowedByDefault meanwhile behaviour
  | attach p type value =>
    refine same ?_
    rw [move, attach]
    split
    · rfl
    · split <;> rfl
  | label | passTo => exact same rfl
  | deliver =>
    -- the loop has nothing to take
    have ht : s.agent.take = none := by
      rcases hs.unstarted ha with hl | ⟨hl, -⟩ <;> simp [Agent.take, hl]
    refine same ?_
    rw [move, deliver, ht]
    rfl
  | drop => exact same s.registry_drop

/-- One who attempted the start cannot take it back. -/
theorem Moved.attempted (hm : s.Moved h? s') (ho : s.Orderly)
    (ha : s.agent.startAttempted = true) : s'.agent.startAttempted = true := by
  cases hm with
  | works hw | installed hw =>
    obtain ⟨moves, hagent, -⟩ := hw.agent
    exact hagent ▸ Agent.startAttempted_play ha moves
  | released => exact Agent.startAttempted_play ha [.release, .sendStop]
  | abandoned =>
    rw [(noted_answerDropped ..).agent]
    exact Agent.startAttempted_play ha [.release, .sendStop]
  | exited he =>
    rw [(noted_answerDropped ..).agent]
    exact he.attempted.trans ha
  | handled ht hh =>
    have kept := hh.kept (ho.taken ht) (by simp [ht.loop])
    have hl := kept.loop.trans ht.loop
    rw [Agent.startAttempted_finish]
    exact kept.orderly.attempted (by simp [hl]) (by simp [hl])

theorem expected_play {r : ResolvedRoot} (h : s.Blank r) (hnone : s.registry.expected = [])
    (moves : List Move) (ha : (s.play moves).agent.startAttempted = false) :
    (s.play moves).registry.expected = s.expectations moves := by
  induction moves using List.reverseRecOn with
  | nil => exact hnone
  | append_singleton moves m ih =>
    have orderly := orderly_play h.orderly moves
    rw [play_concat] at ha ⊢
    have before : (s.play moves).agent.startAttempted = false := by
      rw [← Bool.not_eq_true]
      exact fun hstart => by simp [(moved_move orderly m).attempted orderly hstart] at ha
    rw [expected_move orderly before, expectations_concat, ih before]

/-- The first attempt to start is approved if there are drivers of all features that are
expected. -/
theorem start_isOk_iff (hd : s.dropped = false) (ha : s.agent.startAttempted = false)
    (hr : s.agent.status ≠ .running) : s.start.1 = .ok () ↔ s.registry.isComplete = true := by
  obtain ⟨hregistry, hagent⟩ := s.closeRegistry_fields
  have hcomplete : s.closeRegistry.registry.isComplete = s.registry.isComplete := by
    rw [hregistry]
    rfl
  rw [start, if_neg (by simp [hd])]
  dsimp only
  rw [if_neg (by simp [ha]), hagent, hcomplete, Agent.tryStart, if_neg (by simp [ha])]
  by_cases hc : s.registry.isComplete = true
  · simp [hc]
  · rw [if_neg hc]
    cases hstatus : s.agent.status with
    | running => exact absurd hstatus hr
    | waitingForStart | stopped => simp [hc]

/-- An agent that runs was started. -/
theorem InOrder.not_running {h : List (Service × Agent.Call IdentityJob)} (hs : s.InOrder h)
    (ha : s.agent.startAttempted = false) : s.agent.status ≠ .running := by
  intro hr
  have hstops := hs.stops
  simp only [Agent.stopsLeft, hr, ha, if_true, Bool.false_eq_true, if_false] at hstops
  omega

/-! ### The list over a whole history -/

/-- What holds of the drivers of a service after a history. -/
structure DriverList (s₀ : Service) (moves : List Move) : Prop where
  /-- The drivers are those of the registrations that were accepted, each in its place, with a name
  of its own and the permission that the configuration of the root gives. -/
  enrolled : (s₀.play moves).registry.Enrolled (s₀.registrations moves)
  root : (s₀.play moves).registry.root = (s₀.play moves).graph.root
  /-- A registration that is refused leaves the list alone. -/
  refused : ∀ typeName allowedByDefault meanwhile behaviour e,
    ((s₀.play moves).register typeName allowedByDefault meanwhile behaviour).1 = .error e →
      ((s₀.play moves).register typeName allowedByDefault meanwhile behaviour).2.registry.drivers =
        (s₀.play moves).registry.drivers
  /-- A list that is closed does not change. -/
  frozen : (s₀.play moves).registry.frozen = true → ∀ more,
    (s₀.play (moves ++ more)).registry.frozen = true ∧
      (s₀.play (moves ++ more)).registry.drivers = (s₀.play moves).registry.drivers
  /-- So every message, and every pass for one, finds the list that there is in the end. -/
  seen : ∀ x ∈ s₀.handled moves, x.1.registry.frozen = true ∧
    x.1.registry.drivers = (s₀.play moves).registry.drivers
  /-- The first attempt to start is approved exactly if there are drivers of all features that were
  expected by then. -/
  started : (s₀.play moves).dropped = false → (s₀.play moves).agent.startAttempted = false →
    ((s₀.play moves).start.1 = .ok () ↔ ∀ name ∈ s₀.expectations moves,
      ∃ d ∈ (s₀.play moves).registry.drivers,
        Text.eqIgnoringAsciiCase d.binding.featureName name = true)
  /-- The states in which a driver is made are those after a history, too. -/
  making : ∀ requests : List Request,
    requests.foldl (fun s r => (s.request r).2) (s₀.play moves) =
      s₀.play (moves ++ requests.map .request)

theorem expected_of_new {c : IdentityConfiguration} {place : DataPlace} (h : new c place = .ok s) :
    s.registry.expected = [] := by
  rw [new] at h
  split at h
  iterate 3 cases h
  split at h
  · cases h
  · cases h
    rfl

/-- **The list of drivers.** Whatever is asked while drivers are made, positions, names and
permissions are right, and the list that the start is checked against is the list that stays. -/
theorem driverList {c : IdentityConfiguration} {place : DataPlace} {s₀ : Service}
    (h : new c place = .ok s₀) (moves : List Move) : s₀.DriverList moves := by
  obtain ⟨r, -, blank⟩ := blank_of_new h
  have inOrder := inOrder_play blank moves
  have orderly := inOrder.orderly
  constructor
  case enrolled => exact enrolled_play blank moves
  case root => exact root_play h moves
  case refused =>
    intro typeName allowedByDefault meanwhile behaviour e he
    have listed := listed_register orderly typeName allowedByDefault meanwhile behaviour
    rw [registration?, he] at listed
    cases listed with
    | same drivers => exact drivers
  case frozen =>
    intro hf more
    rw [play_append]
    exact drivers_of_frozen orderly hf more
  case seen =>
    exact fun x hx => ⟨frozen_of_mem_handled blank.orderly hx, inOrder.drivers x hx⟩
  case started =>
    intro hd ha
    rw [start_isOk_iff hd ha (inOrder.not_running ha), Registry.isComplete_iff,
      expected_play blank (expected_of_new h) moves ha]
  case making => exact foldl_request_play s₀ moves

/-- Two drivers are registered, the second of which is made while features are expected and the
service is started. -/
def openingDay : List Move :=
  [.request (.expect "ALPHA"), .register "AlphaFeatureDriver" true [] fun _ _ => .finish .succeeded,
    .register "betaFeatureDriver<T>" false [.expect "Alpha", .start] fun _ _ => .finish .succeeded,
    .deliver]

theorem driverList_of_openingDay :
    ∃ s₀, new .default ⟨"/home", none⟩ = .ok s₀ ∧ s₀.DriverList openingDay := by
  obtain ⟨s₀, h⟩ := exists_new_default
  exact ⟨s₀, h, driverList h openingDay⟩

/-- The second driver comes too late. -/
example : (new .default ⟨"/home", none⟩).toOption.map (fun s =>
    ((s.play openingDay).registry.featureNames, (s.play openingDay).agent.status)) =
      some (["Alpha"], .running) := by
  decide +kernel

end Service

end PartyGraph
