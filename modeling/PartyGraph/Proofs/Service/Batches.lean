import PartyGraph.Proofs.Graph.Drafts
import PartyGraph.Proofs.Service.Moves

/-!
# Batches that wait and batches that are put into the graph

A batch names the parties that were made for it by their numbers. While it waits nothing touches
them: what was made earlier has smaller numbers, and only what comes to be handled earlier changes
the graph (`Batch.Ready`, with the numbers where its family begins and ends).

A batch is put into the graph one party at a time. `Batch.Publishing` is what holds in between, when
the parties of `rest` are still to come, and `Service.publish_induction` is the induction over these
steps that every proof about publications uses.

## Main definitions

* `Graph.Built`: parties made for an owner from a section.
* `Batch.family`: the parties of a batch and those that its tenant domains own.
* `Batch.Fits`, `Batch.Ready`: what is known of a batch that waits.
* `Service.Spares`: what happens while it does.
* `Batch.Publishing`: what holds while it is put into the graph.

## Main results

* `Batch.Ready.spared`: a batch stays ready.
* `Service.room_of_batchRefusal`: an addition that is not refused has room for its names.
* `Service.publish_induction`: one step for each party that an owner is to own.
* `Service.spares_publish`: what is behind a batch in line is spared.
-/

namespace PartyGraph

/-! ### Parties made from a section -/

namespace Graph

variable {g g' : Graph} {owner : PartyRef} {increment : PartySection}
  {remotes tenants : List PartyId}

theorem configuration?_congr {o : PartyRef} (hroot : g'.root = g.root)
    (ho : ∀ id, o = .owned id → g'.origin? id = g.origin? id) :
    g'.configuration? o = g.configuration? o := by
  cases o with
  | root => simp [configuration?, hroot]
  | owned id =>
    have configuration (g : Graph) : g.configuration? (.owned id) = (g.origin? id).map (·.1) := by
      simp only [configuration?, origin?, Option.map_map]
      rfl
    rw [configuration, configuration, ho id rfl]

/-- Whether parties were made for an owner from a section: all that the section describes. -/
def Built (g : Graph) (owner : PartyRef) (increment : PartySection)
    (remotes tenants : List PartyId) : Prop :=
  ∃ c parties, g.configuration? owner = some c ∧ resolveIncrement c increment = .ok parties ∧
    g.Made owner remotes tenants parties

namespace Built

theorem configured (h : g.Built owner increment remotes tenants) :
    ∃ c, g.configuration? owner = some c := by
  obtain ⟨c, -, hc, -⟩ := h
  exact ⟨c, hc⟩

theorem isRemote (h : g.Built owner increment remotes tenants) :
    ∀ id ∈ remotes, g.IsRemote owner id := by
  obtain ⟨c, ps, -, hps, hm⟩ := h
  exact hm.isRemote (resolveIncrement_proper hps)

theorem isTenant (h : g.Built owner increment remotes tenants) : ∀ id ∈ tenants, g.IsTenant id := by
  obtain ⟨c, ps, -, hps, hm⟩ := h
  exact hm.isTenant (resolveIncrement_proper hps)

theorem keys_nodup (h : g.Built owner increment remotes tenants) :
    ((g.family remotes tenants).map g.key).Nodup := by
  obtain ⟨c, ps, -, hps, hm⟩ := h
  rw [hm.keys]
  exact resolveIncrement_nodup hps

theorem congr (h : g.Built owner increment remotes tenants)
    (hc : g'.configuration? owner = g.configuration? owner)
    (ho : ∀ id ∈ g.family remotes tenants, g'.origin? id = g.origin? id)
    (hr : ∀ t ∈ tenants, g'.remotesOf (.owned t) = g.remotesOf (.owned t)) :
    g'.Built owner increment remotes tenants := by
  obtain ⟨c, ps, hconf, hps, hm⟩ := h
  exact ⟨c, ps, hc.trans hconf, hps, hm.congr ho hr⟩

end Built

end Graph

/-! ### Batches that wait -/

namespace Batch

variable {b : Batch} {g : Graph}

/-- The parties of a batch, and those that its tenant domains own. -/
def family (b : Batch) (g : Graph) : List PartyId := g.family b.remotes b.tenants

theorem mem_family {id : PartyId} : id ∈ b.family g ↔
    id ∈ b.parties ∨ ∃ t ∈ b.tenants, id ∈ g.remotesOf (.owned t) := by
  simp only [family, Graph.family, parties, List.mem_append, List.mem_flatMap, List.mem_cons]
  constructor
  · rintro (h | ⟨t, ht, rfl | h⟩)
    · exact .inl (.inl h)
    · exact .inl (.inr ht)
    · exact .inr ⟨t, ht, h⟩
  · rintro ((h | h) | ⟨t, ht, h⟩)
    · exact .inl h
    · exact .inr ⟨id, h, .inl rfl⟩
    · exact .inr ⟨t, ht, .inr h⟩

/-- The answer that a batch waits. -/
def added (b : Batch) : Added := ⟨b.remotes, b.tenants, some b.ticket⟩

/-- Whether a batch can be put into the graph: its parties were made for their place, and there is
the owner. -/
structure Fits (b : Batch) (g : Graph) : Prop where
  remotes : ∀ id ∈ b.remotes, g.IsRemote b.owner id
  tenants : ∀ id ∈ b.tenants, g.IsTenant id
  owner : ∃ c, g.configuration? b.owner = some c
  rootOnly : b.tenants ≠ [] → b.owner = .root

/-- Whether a batch can wait: its family has the numbers from `n` to `m`, it belongs to an owner
that was made before, and someone asked for an addition that it was made for. -/
structure Ready (b : Batch) (s : Service) (n m : Nat) : Prop where
  family : b.family s.graph = List.range' n (m - n)
  nonempty : b.parties ≠ []
  bound : m ≤ s.graph.parties.length
  earlier : ∀ t, b.owner = .owned t → t < n
  rootOnly : b.tenants ≠ [] → b.owner = .root
  asked : ∃ increment,
    .askedToAdd b.owner increment (b.family s.graph) (.ok b.added) ∈ s.journal ∧
      s.graph.Built b.owner increment b.remotes b.tenants

end Batch

/-- What happens between `s` and `s'` leaves alone the parties with numbers from `n` to `m`, and the
lists of tenant domains among them that hold no other party. -/
structure Service.Spares (s s' : Service) (n m : Nat) : Prop where
  root : s'.graph.root = s.graph.root
  length : s.graph.parties.length ≤ s'.graph.parties.length
  origin : ∀ id < m, s'.graph.origin? id = s.graph.origin? id
  remotesOf : ∀ t, n ≤ t → t < m → (∀ r ∈ s.graph.remotesOf (.owned t), n ≤ r) →
    s'.graph.remotesOf (.owned t) = s.graph.remotesOf (.owned t)
  journal : ∀ e ∈ s.journal, e ∈ s'.journal

namespace Service.Spares

variable {s s' : Service} {n n' m m' : Nat}

theorem mono (h : s.Spares s' n m) (hn : n ≤ n') (hm : m' ≤ m) : s.Spares s' n' m' where
  root := h.root
  length := h.length
  origin id hid := h.origin id (Nat.lt_of_lt_of_le hid hm)
  remotesOf t ht ht' hr := h.remotesOf t (Nat.le_trans hn ht) (Nat.lt_of_lt_of_le ht' hm)
    fun r hmem => Nat.le_trans hn (hr r hmem)
  journal := h.journal

/-- Parties that are made leave alone all that were made before. -/
theorem of_extends (h : Graph.Extends s.graph s'.graph)
    (hj : ∃ new, s'.journal = new ++ s.journal) : s.Spares s' 0 s.graph.parties.length where
  root := h.root
  length := h.length
  origin := h.origin
  remotesOf t _ ht _ := h.remotesOf _ fun id hid => PartyRef.owned.inj hid ▸ ht
  journal e he := by
    obtain ⟨new, hnew⟩ := hj
    rw [hnew]
    exact List.mem_append_right _ he

end Service.Spares

namespace Batch.Ready

variable {b : Batch} {s s' : Service} {n m : Nat}

theorem mem_family_iff (h : b.Ready s n m) {id : PartyId} :
    id ∈ b.family s.graph ↔ n ≤ id ∧ id < m := by
  have bounds (i : Nat) : n ≤ i ∧ i < n + (m - n) ↔ n ≤ i ∧ i < m := by omega
  rw [h.family, List.mem_range'_1, bounds]

theorem lt (h : b.Ready s n m) : n < m := by
  obtain ⟨id, hid⟩ := List.exists_mem_of_ne_nil _ h.nonempty
  have hbounds := h.mem_family_iff.mp (mem_family.mpr (.inl hid))
  exact Nat.lt_of_le_of_lt hbounds.1 hbounds.2

theorem fits (h : b.Ready s n m) : b.Fits s.graph := by
  obtain ⟨increment, -, hb⟩ := h.asked
  exact ⟨hb.isRemote, hb.isTenant, hb.configured, h.rootOnly⟩

theorem keys_nodup (h : b.Ready s n m) : ((b.family s.graph).map s.graph.key).Nodup := by
  obtain ⟨increment, -, hb⟩ := h.asked
  exact hb.keys_nodup

/-- The lists of its tenant domains stay as they are while it is spared. -/
theorem remotesOf_tenants (h : b.Ready s n m) (hs : s.Spares s' n m) :
    ∀ t ∈ b.tenants, s'.graph.remotesOf (.owned t) = s.graph.remotesOf (.owned t) := by
  intro t ht
  have hbounds := h.mem_family_iff.mp (mem_family.mpr (.inl (List.mem_append_right _ ht)))
  exact hs.remotesOf t hbounds.1 hbounds.2 fun r hr =>
    (h.mem_family_iff.mp (mem_family.mpr (.inr ⟨t, ht, hr⟩))).1

theorem family_eq (h : b.Ready s n m) (hs : s.Spares s' n m) :
    b.family s'.graph = b.family s.graph :=
  Graph.family_congr (h.remotesOf_tenants hs)

/-- A batch stays ready as long as its family is spared. -/
theorem spared (h : b.Ready s n m) (hs : s.Spares s' n m) : b.Ready s' n m := by
  have hlists := h.remotesOf_tenants hs
  have hfamily := h.family_eq hs
  have howner : s'.graph.configuration? b.owner = s.graph.configuration? b.owner :=
    Graph.configuration?_congr hs.root fun id hid =>
      hs.origin id (Nat.lt_trans (h.earlier id hid) h.lt)
  obtain ⟨increment, hentry, hb⟩ := h.asked
  constructor
  case family => exact hfamily.trans h.family
  case nonempty => exact h.nonempty
  case bound => exact Nat.le_trans h.bound hs.length
  case earlier => exact h.earlier
  case rootOnly => exact h.rootOnly
  case asked =>
    refine ⟨increment, hfamily ▸ hs.journal _ hentry, hb.congr howner (fun id hid => ?_) hlists⟩
    exact hs.origin id (h.mem_family_iff.mp hid).2

end Batch.Ready

namespace Batch

variable {b : Batch} {g g' : Graph}

/-! ### Putting a batch into the graph -/

/-- What holds while a batch is put into a graph `g` which is `g'` by now, when the parties of
`rest` are still to come. -/
structure Publishing (b : Batch) (g : Graph) (rest : List PartyId) (g' : Graph) : Prop where
  sound : g'.Sound
  room : g'.Room rest
  root : g'.root = g.root
  length : g'.parties.length = g.parties.length
  origin : ∀ id, g'.origin? id = g.origin? id
  others : ∀ o, o ≠ b.owner → g'.remotesOf o = g.remotesOf o

namespace Publishing

variable {rest : List PartyId} {id : PartyId}

theorem owner (h : b.Publishing g rest g') (hb : b.Fits g) :
    ∃ c, g'.configuration? b.owner = some c := by
  rw [Graph.configuration?_congr h.root fun id _ => h.origin id]
  exact hb.owner

theorem remote (h : b.Publishing g (id :: rest) g') (hb : b.Fits g) (hid : id ∈ b.remotes) :
    b.Publishing g rest (g'.apply (.insert id)) := by
  have hr : g'.IsRemote b.owner id := (hb.remotes id hid).congr (h.origin id)
  constructor
  case sound => exact h.sound.insert_remote hr (h.owner hb)
  case room => exact h.room.insert_remote hr (h.owner hb)
  case root => exact (Graph.root_apply ..).trans h.root
  case length => rw [Graph.length_apply _ (by simp), h.length]
  case origin => exact fun i => (Graph.origin?_insert ..).trans (h.origin i)
  case others =>
    intro o ho
    rw [Graph.remotesOf_insert_remote hr (h.owner hb), if_neg ho, h.others o ho]

/-- The list of a tenant domain of the batch is as it was at the beginning. -/
theorem nested (h : b.Publishing g rest g') (hb : b.Fits g) (hid : id ∈ b.tenants) :
    g'.remotesOf (.owned id) = g.remotesOf (.owned id) :=
  h.others _ (by rw [hb.rootOnly (List.ne_nil_of_mem hid)]; simp)

theorem tenant (h : b.Publishing g (id :: g.remotesOf (.owned id) ++ rest) g') (hb : b.Fits g)
    (hid : id ∈ b.tenants) : b.Publishing g rest (g'.apply (.insert id)) := by
  have ht : g'.IsTenant id := (hb.tenants id hid).congr (h.origin id)
  have hroom := h.room
  rw [← h.nested hb hid] at hroom
  constructor
  case sound => exact h.sound.insert_tenant ht
  case room => exact hroom.insert_tenant ht
  case root => exact (Graph.root_apply ..).trans h.root
  case length => rw [Graph.length_apply _ (by simp), h.length]
  case origin => exact fun i => (Graph.origin?_insert ..).trans (h.origin i)
  case others =>
    intro o ho
    rw [← h.others o ho, Graph.apply_insert_tenant ht]
    cases o <;> rfl

end Publishing

end Batch

namespace Service

variable {s : Service} {b : Batch}

theorem graph_tellOfRemotes (s : Service) (owner : PartyRef) (e : PartyId → PartyEvent)
    (rs : List PartyId) : (rs.foldl (fun s r => s.tellOfRemote owner (e r)) s).graph = s.graph := by
  induction rs generalizing s with
  | nil => rfl
  | cons r rs ih => exact ih _

theorem graph_publishRemote (s : Service) (owner : PartyRef) (id : PartyId) :
    (s.publishRemote owner id).graph = s.graph.apply (.insert id) := rfl

theorem graph_publishTenant (s : Service) (id : PartyId) :
    (s.publishTenant id).graph = s.graph.apply (.insert id) :=
  graph_tellOfRemotes ..

/-- A batch is put into the graph by one step for each party that the owner is to own. What holds
before and is kept by each of them holds after. -/
theorem publish_induction {P : List PartyId → Service → Prop} (hb : b.Fits s.graph)
    (hs : s.graph.Sound) (hroom : s.graph.Room (b.family s.graph))
    (remote : ∀ id rest t, id ∈ b.remotes → b.Publishing s.graph (id :: rest) t.graph →
      P (id :: rest) t → P rest (t.publishRemote b.owner id))
    (tenant : ∀ id rest t, id ∈ b.tenants →
      b.Publishing s.graph (id :: s.graph.remotesOf (.owned id) ++ rest) t.graph →
      P (id :: s.graph.remotesOf (.owned id) ++ rest) t → P rest (t.publishTenant id))
    (h : P (b.family s.graph) s) :
    b.Publishing s.graph [] (s.publish b).graph ∧ P [] (s.publish b) := by
  let nested := b.tenants.flatMap fun t => t :: s.graph.remotesOf (.owned t)
  have remotes (ids : List PartyId) (hids : ∀ id ∈ ids, id ∈ b.remotes) (t : Service)
      (hp : b.Publishing s.graph (ids ++ nested) t.graph) (h : P (ids ++ nested) t) :
      b.Publishing s.graph nested (ids.foldl (fun s id => s.publishRemote b.owner id) t).graph ∧
        P nested (ids.foldl (fun s id => s.publishRemote b.owner id) t) := by
    induction ids generalizing t with
    | nil => exact ⟨hp, h⟩
    | cons id ids ih =>
      rw [List.forall_mem_cons] at hids
      exact ih hids.2 _ (hp.remote hb hids.1) (remote _ _ _ hids.1 hp h)
  have tenants (ids : List PartyId) (hids : ∀ id ∈ ids, id ∈ b.tenants) (t : Service)
      (hp : b.Publishing s.graph (ids.flatMap fun t => t :: s.graph.remotesOf (.owned t)) t.graph)
      (h : P (ids.flatMap fun t => t :: s.graph.remotesOf (.owned t)) t) :
      b.Publishing s.graph [] (ids.foldl publishTenant t).graph ∧
        P [] (ids.foldl publishTenant t) := by
    induction ids generalizing t with
    | nil => exact ⟨hp, h⟩
    | cons id ids ih =>
      rw [List.forall_mem_cons] at hids
      rw [List.flatMap_cons] at hp h
      have hp' := hp.tenant hb hids.1
      rw [← graph_publishTenant] at hp'
      exact ih hids.2 _ hp' (tenant _ _ _ hids.1 hp h)
  have start : b.Publishing s.graph (b.family s.graph) s.graph :=
    ⟨hs, hroom, rfl, rfl, fun _ => rfl, fun _ _ => rfl⟩
  obtain ⟨hp, h⟩ := remotes b.remotes (fun _ h => h) s start h
  exact tenants b.tenants (fun _ h => h) _ hp h

theorem publishing_publish (hb : b.Fits s.graph) (hs : s.graph.Sound)
    (hroom : s.graph.Room (b.family s.graph)) :
    b.Publishing s.graph [] (s.publish b).graph :=
  (publish_induction (P := fun _ _ => True) hb hs hroom (fun _ _ _ _ _ _ => trivial)
    (fun _ _ _ _ _ _ => trivial) trivial).1

/-- What has greater numbers than the owner of a batch is spared when the batch is put into the
graph. -/
theorem spares_publish {n m : Nat} (hb : b.Ready s n m) (hs : s.graph.Sound)
    (hroom : s.graph.Room (b.family s.graph)) :
    s.Spares (s.publish b) n s.graph.parties.length := by
  have hp := publishing_publish hb.fits hs hroom
  obtain ⟨new, hj, -⟩ := (noted_publish s b).journal
  constructor
  case root => exact hp.root
  case length => exact Nat.le_of_eq hp.length.symm
  case origin => exact fun id _ => hp.origin id
  case remotesOf =>
    intro t ht _ _
    have hne : .owned t ≠ b.owner := fun ho => Nat.not_le.mpr (hb.earlier t ho.symm) ht
    exact hp.others _ hne
  case journal => exact fun e he => hj ▸ List.mem_append_right _ he

/-- An addition that is not refused has room for its names. -/
theorem room_of_batchRefusal {n m : Nat} (hr : s.batchRefusal b = none) (hs : s.graph.Room [])
    (hb : b.Ready s n m) : s.graph.Room (b.family s.graph) := by
  have hkeys : s.graph.keys.Nodup := hs.keys_nodup
  refine List.nodup_append.mpr ⟨hkeys, hb.keys_nodup, ?_⟩
  rintro key hkey _ hmem rfl
  obtain ⟨id, hid, rfl⟩ := List.mem_map.mp hmem
  have hcandidate : id ∈ s.candidates b := by
    rw [candidates, List.mem_append, List.mem_flatMap]
    exact Batch.mem_family.mp hid
  rw [batchRefusal] at hr
  split at hr
  · cases hr
  · split at hr
    · cases hr
    · have := List.find?_eq_none.mp (Option.map_eq_none_iff.mp hr) id hcandidate
      simp at this
      exact this hkey

end Service

end PartyGraph
