import Rapid.View.MembershipView
import Rapid.Foundations.Transition

/-!
# ViewInvariant — what the rings of a view hold

As long as no two members have the same address hash on a ring, every ring holds exactly the
members, each under its own hash (`Valid`). The sorted rings, the sorted identifiers and the
configuration id are then functions of the member set and the identifier set: the history of a view
leaves no other trace in them.
-/

namespace Rapid

open Foundations

variable [Xxh64]

/-! ## One ring -/

/-- No two of these endpoints have the same address hash on one of the first `k` rings. -/
def CollisionFree (k : UInt8) (nodes : Finset Endpoint) : Prop :=
  ∀ i < k.toNat, Set.InjOn (addressHash i.toUInt64) nodes

instance (k : UInt8) (nodes : Finset Endpoint) : Decidable (CollisionFree k nodes) :=
  decidable_of_iff
    (∀ i < k.toNat, ∀ a ∈ nodes, ∀ b ∈ nodes,
      addressHash i.toUInt64 a = addressHash i.toUInt64 b → a = b)
    ⟨fun h i hi a ha b hb => h i hi a ha b hb, fun h i hi _ ha _ hb => h i hi ha hb⟩

theorem CollisionFree.subset {k : UInt8} {nodes nodes' : Finset Endpoint}
    (h : CollisionFree k nodes') (hsub : nodes ⊆ nodes') : CollisionFree k nodes :=
  fun i hi => (h i hi).mono hsub

/-- The ring holds exactly the given endpoints, each under its own key. -/
def Ring.Holds (ring : Ring) (nodes : Finset Endpoint) : Prop :=
  ∀ p, p ∈ ring.byHash.entries ↔ p.2 ∈ nodes ∧ p.1 = ring.key p.2

variable {ring ring' : Ring} {nodes : Finset Endpoint} {e : Endpoint}

theorem Ring.Holds.contains_iff (h : ring.Holds nodes)
    (hfree : Set.InjOn ring.key (Insert.insert e nodes : Finset Endpoint)) :
    ring.contains e = true ↔ e ∈ nodes := by
  rw [Ring.contains, OrderedMap.containsKey_eq_true]
  constructor
  · rintro ⟨x, hx⟩
    rcases (h _).1 hx with ⟨hmem, hkey⟩
    have heq : e = x :=
      hfree (Finset.mem_insert_self e nodes) (Finset.mem_insert_of_mem hmem) hkey
    exact heq ▸ hmem
  · intro he
    exact ⟨e, (h _).2 ⟨he, rfl⟩⟩

theorem holds_insert (h : ring.Holds nodes)
    (hfree : Set.InjOn ring.key (insert e nodes : Finset Endpoint)) :
    (ring.insert e).1.Holds (insert e nodes) := by
  have hcontains := h.contains_iff hfree
  unfold Ring.insert
  dsimp only
  split
  · rename_i hkey
    rw [Finset.insert_eq_of_mem (hcontains.1 hkey)]
    exact h
  · rename_i hkey
    have hnew : e ∉ nodes := fun he => hkey (hcontains.2 he)
    intro p
    rw [OrderedMap.mem_insert, h p, Finset.mem_insert]
    constructor
    · rintro (rfl | ⟨⟨hmem, hp⟩, _⟩)
      · exact ⟨.inl rfl, rfl⟩
      · exact ⟨.inr hmem, hp⟩
    · rintro ⟨hmem, hp⟩
      rcases hmem with heq | hmem
      · exact .inl (Prod.ext (hp.trans (congrArg ring.key heq)) heq)
      · refine .inr ⟨⟨hmem, hp⟩, ?_⟩
        intro hkey'
        -- An old entry with the key of `e` would be a collision.
        have heq : p.2 = e :=
          hfree (Finset.mem_insert_of_mem hmem) (Finset.mem_insert_self e nodes)
            (hp.symm.trans hkey')
        exact hnew (heq ▸ hmem)

theorem holds_remove (h : ring.Holds nodes)
    (hfree : Set.InjOn ring.key (insert e nodes : Finset Endpoint)) :
    (ring.remove e).1.Holds (nodes.erase e) := by
  intro p
  show p ∈ (ring.byHash.remove (ring.key e)).entries ↔ p.2 ∈ nodes.erase e ∧ p.1 = ring.key p.2
  rw [OrderedMap.mem_remove, h p, Finset.mem_erase]
  constructor
  · rintro ⟨⟨hmem, hp⟩, hne⟩
    exact ⟨⟨fun heq => hne (by rw [hp, heq]), hmem⟩, hp⟩
  · rintro ⟨⟨hne, hmem⟩, hp⟩
    refine ⟨⟨hmem, hp⟩, ?_⟩
    intro hkey
    exact hne (hfree (Finset.mem_insert_of_mem hmem) (Finset.mem_insert_self e nodes)
      (hp.symm.trans hkey))

@[simp] theorem Ring.seed_insert : (ring.insert e).1.seed = ring.seed := by
  unfold Ring.insert
  dsimp only
  split <;> rfl

@[simp] theorem Ring.seed_remove : (ring.remove e).1.seed = ring.seed := rfl

theorem Ring.Holds.mem_ordered (h : ring.Holds nodes) : e ∈ ring.ordered ↔ e ∈ nodes := by
  rw [Ring.ordered, OrderedMap.mem_values]
  constructor
  · rintro ⟨key, hmem⟩
    exact ((h _).1 hmem).1
  · intro he
    exact ⟨ring.key e, (h _).2 ⟨he, rfl⟩⟩

theorem Ring.Holds.nodup_ordered (h : ring.Holds nodes) : ring.ordered.Nodup := by
  refine List.Nodup.map_on ?_ ring.byHash.nodup_entries
  intro p hp q hq heq
  refine Prod.ext ?_ heq
  rw [((h p).1 hp).2, ((h q).1 hq).2, heq]

theorem Ring.Holds.length_ordered (h : ring.Holds nodes) : ring.ordered.length = nodes.card := by
  have hset : ring.ordered.toFinset = nodes := by
    ext e
    rw [List.mem_toFinset, h.mem_ordered]
  rw [← hset, List.toFinset_card_of_nodup h.nodup_ordered]

theorem Ring.Holds.len (h : ring.Holds nodes) : ring.len = nodes.card := by
  rw [← h.length_ordered, Ring.ordered, OrderedMap.values, List.length_map]
  rfl

/-- The endpoints of a ring have keys of their own, and so has an endpoint that it has room for. -/
theorem Ring.Holds.injOn (h : ring.Holds nodes) (he : e ∈ nodes ∨ ring.contains e = false) :
    Set.InjOn ring.key (Insert.insert e nodes : Finset Endpoint) := by
  have hnodes : ∀ a ∈ nodes, ∀ b ∈ nodes, ring.key a = ring.key b → a = b := by
    intro a ha b hb hab
    have hentry : (ring.key a, a) ∈ ring.byHash.entries := (h _).2 ⟨ha, rfl⟩
    exact OrderedMap.value_unique hentry ((h _).2 ⟨hb, hab⟩)
  -- `e` is one of them or its place on the ring is free.
  have hroom : ∀ b ∈ nodes, ring.key e = ring.key b → e = b := by
    intro b hb heb
    rcases he with hmember | hfree
    · exact hnodes e hmember b hb heb
    · have htaken : ring.contains e = true :=
        OrderedMap.containsKey_eq_true.2 ⟨b, (h _).2 ⟨hb, heb⟩⟩
      rw [hfree] at htaken
      cases htaken
  intro a ha b hb hab
  rcases Finset.mem_insert.1 ha with rfl | ha'
  · rcases Finset.mem_insert.1 hb with rfl | hb'
    · rfl
    · exact hroom b hb' hab
  · rcases Finset.mem_insert.1 hb with rfl | hb'
    · exact (hroom a ha' hab.symm).symm
    · exact hnodes a ha' b hb' hab

/-- A ring is determined by its seed and its endpoints. -/
theorem Ring.Holds.eq (h : ring.Holds nodes) (h' : ring'.Holds nodes) (hseed : ring.seed = ring'.seed) :
    ring = ring' := by
  cases ring with
  | mk seed byHash =>
      cases ring' with
      | mk seed' byHash' =>
          cases hseed
          have hmap : byHash = byHash' :=
            OrderedMap.eq_of_mem_iff fun p => (h p).trans (h' p).symm
          rw [hmap]

/-! ## The invariant of a view -/

namespace MembershipView

structure Valid (v : MembershipView) : Prop where
  seeds : ∀ i (h : i < v.rings.length), v.rings[i].seed = i.toUInt64
  holds : ∀ ring ∈ v.rings, ring.Holds v.allNodes
  free : CollisionFree v.k v.allNodes
  configuration : v.configurationDirty = false →
    v.configurationId = configurationIdFor v.currentIdentifiers v.ringZero.ordered

variable {v w : MembershipView} {e : Endpoint} {id : NodeId}

omit [Xxh64] in
theorem ringZero_mem : v.ringZero ∈ v.rings :=
  List.head_mem _

omit [Xxh64] in
theorem rings_map_seed {f : Ring → Ring} (hf : ∀ ring, (f ring).seed = ring.seed)
    {rings : List Ring} (h : ∀ i (h : i < rings.length), rings[i].seed = i.toUInt64) :
    ∀ i (h : i < (rings.map f).length), (rings.map f)[i].seed = i.toUInt64 := by
  intro i hi
  rw [List.getElem_map, hf]
  exact h i (by simpa using hi)

/-- On the rings of a view, collision freedom is injectivity of the keys. -/
theorem Valid.injOn (h : v.Valid) {nodes : Finset Endpoint} (hfree : CollisionFree v.k nodes)
    {ring : Ring} (hring : ring ∈ v.rings) : Set.InjOn ring.key nodes := by
  rcases List.getElem_of_mem hring with ⟨i, hi, rfl⟩
  intro a ha b hb hab
  have hkey : addressHash i.toUInt64 a = addressHash i.toUInt64 b := by
    rw [← h.seeds i hi]
    simpa [Ring.key] using congrArg Int64.toUInt64 hab
  exact hfree i (by rw [← v.rings_length]; exact hi) ha hb hkey

omit [Xxh64] in
theorem currentIdentifiers_map : v.currentIdentifiers.map NodeIdKey.ofNodeId = v.identifiers.keys := by
  rw [currentIdentifiers, List.map_pmap]
  have hkey : ∀ key (h : (v.identifierObjs.lookup key).isSome),
      NodeIdKey.ofNodeId ((v.identifierObjs.lookup key).get h) = key := by
    intro key h
    exact v.objs_key key _ (Option.some_get h).symm
  simp only [hkey]
  exact (List.pmap_eq_map _).trans (List.map_id' _)

omit [Xxh64] in
theorem isIdentifierPresent_iff :
    v.isIdentifierPresent id = true ↔ NodeIdKey.ofNodeId id ∈ v.identifiers.keys := by
  rw [isIdentifierPresent, OrderedMap.containsKey_eq_true, OrderedMap.keys, List.mem_map]
  constructor
  · rintro ⟨u, hu⟩
    exact ⟨_, hu, rfl⟩
  · rintro ⟨p, hp, hkey⟩
    exact ⟨p.2, hkey ▸ hp⟩

/-! ## What a call does -/

/-- `ring_add` is accepted when the identifier is new and ring 0 has room; else it changes nothing. -/
theorem ringAdd_cases (v : MembershipView) (endpoint : Endpoint) (id : NodeId) :
    (v.isIdentifierPresent id = false ∧ v.ringZero.contains endpoint = false ∧
        v.ringAdd endpoint id = (v.added endpoint id, .ok ())) ∨
      ∃ err, v.ringAdd endpoint id = (v, .error err) := by
  unfold ringAdd
  split
  · exact Or.inr ⟨_, rfl⟩
  · rename_i hid
    split
    · exact Or.inr ⟨_, rfl⟩
    · rename_i hring
      exact Or.inl ⟨Bool.eq_false_iff.2 hid, Bool.eq_false_iff.2 hring, rfl⟩

/-- `ring_delete` removes a key of ring 0 or changes nothing. -/
theorem ringDelete_cases (v : MembershipView) (endpoint : Endpoint) :
    (v.ringZero.contains endpoint = true ∧ v.ringDelete endpoint = (v.deleted endpoint, .ok ())) ∨
      ∃ err, v.ringDelete endpoint = (v, .error err) := by
  unfold ringDelete
  split
  · rename_i hring
    exact Or.inl ⟨hring, rfl⟩
  · exact Or.inr ⟨_, rfl⟩

/-- `get_observers_of` caches the list of a member or changes nothing. -/
theorem getObserversOf_cases (v : MembershipView) (node : Endpoint) :
    (node ∈ v.allNodes ∧ (v.getObserversOf node).1 =
        { v with cachedObservers := v.cachedObservers.insert node (v.computeObserversOf node) }) ∨
      (v.getObserversOf node).1 = v := by
  unfold getObserversOf
  split
  · rename_i hpresent
    split
    · exact Or.inr rfl
    · exact Or.inl ⟨of_decide_eq_true hpresent, rfl⟩
  · exact Or.inr rfl

/-- `current_configuration_id` changes a view only where the id is marked dirty. -/
theorem currentConfigurationId_cases (v : MembershipView) :
    (v.configurationDirty = true ∧ v.currentConfigurationId.1 =
        { v.refreshConfigurationId with configurationDirty := false }) ∨
      v.configurationDirty = false ∧ v.currentConfigurationId.1 = v := by
  unfold currentConfigurationId
  dsimp only
  split
  · rename_i hdirty
    exact Or.inl ⟨hdirty, rfl⟩
  · rename_i hclean
    exact Or.inr ⟨Bool.eq_false_iff.2 hclean, rfl⟩

/-- A clean id is the current one: then the id returned is current in any case. -/
theorem currentConfigurationId_eq_of_clean (h : v.configurationDirty = false →
    v.configurationId = configurationIdFor v.currentIdentifiers v.ringZero.ordered) :
    v.currentConfigurationId.2 = configurationIdFor v.currentIdentifiers v.ringZero.ordered := by
  show v.currentConfigurationId.1.configurationId = _
  rcases v.currentConfigurationId_cases with ⟨_, hfresh⟩ | ⟨hclean, hsame⟩
  · rw [hfresh]
    rfl
  · rw [hsame]
    exact h hclean

/-! ## Every operation keeps the invariant -/

/-- A change of all rings and of the members that leaves the configuration id to be refreshed. -/
theorem Valid.update (h : v.Valid) {f : Ring → Ring} (hseed : ∀ ring, (f ring).seed = ring.seed)
    (hholds : ∀ ring ∈ v.rings, (f ring).Holds w.allNodes) (hfree : CollisionFree w.k w.allNodes)
    (hrings : w.rings = v.rings.map f) (hdirty : w.configurationDirty = true) : w.Valid where
  seeds := by
    rw [hrings]
    exact rings_map_seed hseed h.seeds
  holds := by
    rw [hrings]
    intro ring hring
    rcases List.mem_map.1 hring with ⟨ring, hmem, rfl⟩
    exact hholds ring hmem
  free := hfree
  configuration := by
    rw [hdirty]
    intro hclean
    cases hclean

theorem Valid.addEndpoint (h : v.Valid) (hdirty : v.configurationDirty = true)
    (hfree : CollisionFree v.k (insert e v.allNodes)) : (v.addEndpoint e).Valid :=
  h.update (fun _ => Ring.seed_insert) (fun _ hring => holds_insert (h.holds _ hring)
    (h.injOn hfree hring)) hfree rfl hdirty

theorem Valid.added (h : v.Valid) (hfree : CollisionFree v.k (insert e v.allNodes)) :
    (v.added e id).Valid :=
  h.update (fun _ => Ring.seed_insert) (fun _ hring => holds_insert (h.holds _ hring)
    (h.injOn hfree hring)) hfree rfl rfl

theorem Valid.deleted (h : v.Valid) (hfree : CollisionFree v.k (insert e v.allNodes)) :
    (v.deleted e).Valid :=
  h.update (fun _ => Ring.seed_remove) (fun _ hring => holds_remove (h.holds _ hring)
    (h.injOn hfree hring)) (h.free.subset (Finset.erase_subset _ _)) rfl rfl

/-- An endpoint is on ring 0 exactly when it is a member, unless it collides with one. -/
theorem Valid.contains_ringZero (h : v.Valid) (hfree : CollisionFree v.k (insert e v.allNodes)) :
    v.ringZero.contains e = true ↔ e ∈ v.allNodes :=
  (h.holds _ ringZero_mem).contains_iff (h.injOn hfree ringZero_mem)

theorem Valid.currentConfigurationId (h : v.Valid) : v.currentConfigurationId.1.Valid := by
  rcases v.currentConfigurationId_cases with ⟨_, hfresh⟩ | ⟨_, hsame⟩
  · rw [hfresh]
    exact ⟨h.seeds, h.holds, h.free, fun _ => rfl⟩
  · rw [hsame]
    exact h

/-- The configuration id returned is that of the current identifiers and ring 0. -/
theorem Valid.currentConfigurationId_eq (h : v.Valid) :
    v.currentConfigurationId.2 = configurationIdFor v.currentIdentifiers v.ringZero.ordered :=
  currentConfigurationId_eq_of_clean h.configuration

/-! ## Bootstrap -/

theorem Valid.of_new {k : UInt8} (h : new k = .ok v) :
    v.Valid ∧ v.k = k ∧ v.allNodes = ∅ ∧ v.identifiers = .empty ∧ v.configurationDirty = true := by
  unfold new at h
  split at h
  · cases h
    refine ⟨⟨?_, ?_, ?_, ?_⟩, rfl, rfl, rfl, rfl⟩
    · intro i hi
      simp [Ring.new]
    · intro ring hring
      rcases List.mem_map.1 hring with ⟨i, _, rfl⟩
      intro p
      simp [Ring.new]
    · intro i _
      simp
    · intro hclean
      cases hclean
  · cases h

theorem Valid.addIdentifier (h : v.Valid) (hdirty : v.configurationDirty = true) :
    (v.addIdentifier id).Valid :=
  ⟨h.seeds, h.holds, h.free, fun hclean => absurd hclean (by rw [show
    (v.addIdentifier id).configurationDirty = true from hdirty]; decide)⟩

omit [Xxh64] in
theorem mem_keys_addIdentifier {key : NodeIdKey} :
    key ∈ (v.addIdentifier id).identifiers.keys ↔ key = .ofNodeId id ∨ key ∈ v.identifiers.keys := by
  simp only [MembershipView.addIdentifier, OrderedMap.keys, List.mem_map, OrderedMap.mem_insert]
  constructor
  · rintro ⟨p, rfl | ⟨hp, _⟩, rfl⟩
    · exact .inl rfl
    · exact .inr ⟨p, hp, rfl⟩
  · rintro (rfl | ⟨p, hp, rfl⟩)
    · exact ⟨_, .inl rfl, rfl⟩
    · by_cases hkey : p.1 = .ofNodeId id
      · exact ⟨_, .inl rfl, hkey.symm⟩
      · exact ⟨p, .inr ⟨hp, hkey⟩, rfl⟩

omit [Xxh64] in
/-- The first loop of `bootstrap` adds the identifiers and nothing else. -/
theorem foldl_addIdentifier (ids : List NodeId) :
    ∀ v : MembershipView, (ids.foldl MembershipView.addIdentifier v).k = v.k ∧
      (ids.foldl MembershipView.addIdentifier v).rings = v.rings ∧
      (ids.foldl MembershipView.addIdentifier v).allNodes = v.allNodes ∧
      (ids.foldl MembershipView.addIdentifier v).configurationDirty = v.configurationDirty ∧
      ∀ key, key ∈ (ids.foldl MembershipView.addIdentifier v).identifiers.keys ↔
        key ∈ ids.map NodeIdKey.ofNodeId ∨ key ∈ v.identifiers.keys := by
  induction ids with
  | nil => exact fun v => ⟨rfl, rfl, rfl, rfl, fun key => by simp⟩
  | cons id ids ih =>
      intro v
      rcases ih (v.addIdentifier id) with ⟨hk, hrings, hnodes, hdirty, hkeys⟩
      refine ⟨hk, hrings, hnodes, hdirty, ?_⟩
      intro key
      rw [List.foldl_cons, hkeys key, mem_keys_addIdentifier, List.map_cons, List.mem_cons]
      tauto

theorem Valid.foldl_addIdentifier (ids : List NodeId) :
    ∀ {v : MembershipView}, v.Valid → v.configurationDirty = true →
      (ids.foldl MembershipView.addIdentifier v).Valid := by
  induction ids with
  | nil => exact fun h _ => h
  | cons id ids ih => exact fun h hdirty => ih (h.addIdentifier hdirty) hdirty

theorem members_addEndpoint (v : MembershipView) (e : Endpoint) (endpoints : List Endpoint) :
    (v.addEndpoint e).allNodes ∪ endpoints.toFinset =
      v.allNodes ∪ (e :: endpoints).toFinset := by
  ext x
  simp only [MembershipView.addEndpoint, Finset.mem_union, Finset.mem_insert, List.mem_toFinset,
    List.mem_cons]
  tauto

/-- The second loop of `bootstrap` adds the endpoints and nothing else. -/
theorem foldl_addEndpoint (endpoints : List Endpoint) :
    ∀ v : MembershipView, (endpoints.foldl MembershipView.addEndpoint v).k = v.k ∧
      (endpoints.foldl MembershipView.addEndpoint v).allNodes =
        v.allNodes ∪ endpoints.toFinset ∧
      (endpoints.foldl MembershipView.addEndpoint v).identifiers = v.identifiers := by
  induction endpoints with
  | nil => exact fun v => ⟨rfl, by simp, rfl⟩
  | cons e endpoints ih =>
      intro v
      rcases ih (v.addEndpoint e) with ⟨hk, hnodes, hids⟩
      exact ⟨hk, hnodes.trans (members_addEndpoint v e endpoints), hids⟩

theorem Valid.foldl_addEndpoint (endpoints : List Endpoint) :
    ∀ {v : MembershipView}, v.Valid → v.configurationDirty = true →
      CollisionFree v.k (v.allNodes ∪ endpoints.toFinset) →
        (endpoints.foldl MembershipView.addEndpoint v).Valid := by
  induction endpoints with
  | nil => exact fun h _ _ => h
  | cons e endpoints ih =>
      intro v h hdirty hfree
      have hunion := members_addEndpoint v e endpoints
      have hinsert : insert e v.allNodes ⊆ v.allNodes ∪ (e :: endpoints).toFinset := by
        rw [← hunion]
        exact Finset.subset_union_left
      refine ih (h.addEndpoint hdirty (hfree.subset hinsert)) hdirty ?_
      rw [hunion]
      exact hfree

/-- `bootstrap` is `new` and then the two loops. -/
theorem bootstrap_loops {k : UInt8} {ids : List NodeId} {endpoints : List Endpoint}
    (h : bootstrap k ids endpoints = .ok v) :
    ∃ v₀, new k = .ok v₀ ∧
      v = { endpoints.foldl addEndpoint (ids.foldl addIdentifier v₀) with configurationDirty := true } := by
  unfold bootstrap at h
  cases hnew : new k with
  | error err =>
      rw [hnew] at h
      cases h
  | ok v₀ =>
      rw [hnew] at h
      cases h
      exact ⟨v₀, rfl, rfl⟩

/-- What `bootstrap` builds holds the endpoints and the identifiers that it is given. -/
theorem bootstrap_holds {k : UInt8} {ids : List NodeId} {endpoints : List Endpoint}
    (h : bootstrap k ids endpoints = .ok v) :
    v.k = k ∧ v.allNodes = endpoints.toFinset ∧
      ∀ key, key ∈ v.identifiers.keys ↔ key ∈ ids.map NodeIdKey.ofNodeId := by
  rcases bootstrap_loops h with ⟨v₀, hnew, rfl⟩
  rcases Valid.of_new hnew with ⟨_, hk₀, hnodes₀, hids₀, _⟩
  rcases MembershipView.foldl_addIdentifier ids v₀ with ⟨hk₁, _, hnodes₁, _, hkeys₁⟩
  rcases MembershipView.foldl_addEndpoint endpoints
    (ids.foldl MembershipView.addIdentifier v₀) with ⟨hk₂, hnodes₂, hids₂⟩
  refine ⟨hk₂.trans (hk₁.trans hk₀), ?_, ?_⟩
  · refine hnodes₂.trans ?_
    rw [hnodes₁, hnodes₀, Finset.empty_union]
  · intro key
    show key ∈ ((endpoints.foldl MembershipView.addEndpoint
      (ids.foldl MembershipView.addIdentifier v₀)).identifiers).keys ↔ _
    rw [hids₂, hkeys₁ key, hids₀]
    simp [OrderedMap.keys]

theorem Valid.of_bootstrap {k : UInt8} {ids : List NodeId} {endpoints : List Endpoint}
    (h : bootstrap k ids endpoints = .ok v) (hfree : CollisionFree k endpoints.toFinset) :
    v.Valid ∧ v.k = k ∧ v.allNodes = endpoints.toFinset ∧
      ∀ key, key ∈ v.identifiers.keys ↔ key ∈ ids.map NodeIdKey.ofNodeId := by
  refine ⟨?_, bootstrap_holds h⟩
  rcases bootstrap_loops h with ⟨v₀, hnew, rfl⟩
  rcases Valid.of_new hnew with ⟨hv₀, hk₀, hnodes₀, _, hdirty₀⟩
  rcases MembershipView.foldl_addIdentifier ids v₀ with ⟨hk₁, _, hnodes₁, hdirty₁, _⟩
  have hfree₁ : CollisionFree (ids.foldl MembershipView.addIdentifier v₀).k
      ((ids.foldl MembershipView.addIdentifier v₀).allNodes ∪ endpoints.toFinset) := by
    rw [hk₁, hk₀, hnodes₁, hnodes₀, Finset.empty_union]
    exact hfree
  have hv₁ := Valid.foldl_addEndpoint endpoints (Valid.foldl_addIdentifier ids hv₀ hdirty₀)
    (hdirty₁.trans hdirty₀) hfree₁
  exact ⟨hv₁.seeds, hv₁.holds, hv₁.free, fun hclean => by cases hclean⟩

theorem bootstrap_eq_ok {k : UInt8} (hk : 0 < k.toNat) (ids : List NodeId)
    (endpoints : List Endpoint) : ∃ v, bootstrap k ids endpoints = .ok v := by
  unfold bootstrap new
  rw [dif_pos hk]
  exact ⟨_, rfl⟩

/-! ## The invariant determines the view -/

/-- Two views of the same members have the same rings. -/
theorem Valid.rings_eq (hv : v.Valid) (hw : w.Valid) (hk : v.k = w.k)
    (hnodes : v.allNodes = w.allNodes) : v.rings = w.rings := by
  apply List.ext_getElem
  · rw [v.rings_length, w.rings_length, hk]
  · intro i hi hi'
    refine (hv.holds _ (List.getElem_mem hi)).eq ?_ ((hv.seeds i hi).trans (hw.seeds i hi').symm)
    rw [hnodes]
    exact hw.holds _ (List.getElem_mem hi')

omit [Xxh64] in
theorem identifiers_eq (h : ∀ id, v.isIdentifierPresent id = w.isIdentifierPresent id) :
    v.identifiers = w.identifiers := by
  apply OrderedMap.eq_of_mem_iff
  rintro ⟨⟨high, low⟩, ⟨⟩⟩
  have hid := h ⟨high, low⟩
  have hkey : ∀ u : MembershipView, u.isIdentifierPresent ⟨high, low⟩ = true ↔
      ((⟨high, low⟩, ()) : NodeIdKey × Unit) ∈ u.identifiers.entries := by
    intro u
    rw [isIdentifierPresent, OrderedMap.containsKey_eq_true]
    exact ⟨fun ⟨_, hmem⟩ => hmem, fun hmem => ⟨_, hmem⟩⟩
  rw [← hkey v, ← hkey w, hid]

omit [Xxh64] in
theorem currentIdentifiers_eq (h : v.identifiers = w.identifiers) :
    v.currentIdentifiers = w.currentIdentifiers := by
  refine List.map_injective_iff.2 NodeIdKey.ofNodeId_injective ?_
  rw [currentIdentifiers_map, currentIdentifiers_map, h]

omit [Xxh64] in
theorem ringZero_eq (h : v.rings = w.rings) : v.ringZero = w.ringZero := by
  simp only [ringZero, h]

omit [Xxh64] in
theorem ringZero_map {f : Ring → Ring} (h : w.rings = v.rings.map f) :
    w.ringZero = f v.ringZero := by
  simp only [ringZero, h, List.head_map]

theorem ringZero_deleted {e : Endpoint} : (v.deleted e).ringZero = (v.ringZero.remove e).1 :=
  ringZero_map (f := fun ring => (ring.remove e).1) rfl

theorem ringZero_added {e : Endpoint} {id : NodeId} :
    (v.added e id).ringZero = (v.ringZero.insert e).1 :=
  ringZero_map (f := fun ring => (ring.insert e).1) rfl

theorem Valid.currentConfigurationId_congr (hv : v.Valid) (hw : w.Valid) (hrings : v.rings = w.rings)
    (hids : v.identifiers = w.identifiers) :
    v.currentConfigurationId.2 = w.currentConfigurationId.2 := by
  rw [hv.currentConfigurationId_eq, hw.currentConfigurationId_eq, currentIdentifiers_eq hids,
    ringZero_eq hrings]

end MembershipView

/-! ## Histories -/

/-- The calls that need the view mutably. -/
inductive ViewOp
  | ringAdd (endpoint : Endpoint) (id : NodeId)
  | ringDelete (endpoint : Endpoint)
  | getObserversOf (node : Endpoint)
  | currentConfigurationId
  deriving DecidableEq

namespace MembershipView

/-- The view left behind by a call, successful or rejected. -/
def apply (v : MembershipView) : ViewOp → MembershipView
  | .ringAdd endpoint id => (v.ringAdd endpoint id).1
  | .ringDelete endpoint => (v.ringDelete endpoint).1
  | .getObserversOf node => (v.getObserversOf node).1
  | .currentConfigurationId => v.currentConfigurationId.1

end MembershipView

/-- What one call does. A rejected update changes nothing, nor does a query that is answered from the
cache. -/
inductive ViewStep (v : MembershipView) : ViewOp → MembershipView → Prop
  | added (endpoint : Endpoint) (id : NodeId) (hid : v.isIdentifierPresent id = false)
      (hring : v.ringZero.contains endpoint = false) :
      ViewStep v (.ringAdd endpoint id) (v.added endpoint id)
  | deleted (endpoint : Endpoint) (hring : v.ringZero.contains endpoint = true) :
      ViewStep v (.ringDelete endpoint) (v.deleted endpoint)
  | cached (node : Endpoint) (hmember : node ∈ v.allNodes) :
      ViewStep v (.getObserversOf node)
        { v with cachedObservers := v.cachedObservers.insert node (v.computeObserversOf node) }
  | refreshed (hdirty : v.configurationDirty = true) :
      ViewStep v .currentConfigurationId
        { v.refreshConfigurationId with configurationDirty := false }
  | unchanged (op : ViewOp) : ViewStep v op v

namespace MembershipView

theorem apply_step (v : MembershipView) (op : ViewOp) : ViewStep v op (v.apply op) := by
  cases op with
  | ringAdd endpoint id =>
      show ViewStep v _ (v.ringAdd endpoint id).1
      rcases v.ringAdd_cases endpoint id with ⟨hid, hring, hadd⟩ | ⟨_, hadd⟩
      · rw [hadd]
        exact .added endpoint id hid hring
      · rw [hadd]
        exact .unchanged _
  | ringDelete endpoint =>
      show ViewStep v _ (v.ringDelete endpoint).1
      rcases v.ringDelete_cases endpoint with ⟨hring, hdelete⟩ | ⟨_, hdelete⟩
      · rw [hdelete]
        exact .deleted endpoint hring
      · rw [hdelete]
        exact .unchanged _
  | getObserversOf node =>
      show ViewStep v _ (v.getObserversOf node).1
      rcases v.getObserversOf_cases node with ⟨hmember, hcached⟩ | hsame
      · rw [hcached]
        exact .cached node hmember
      · rw [hsame]
        exact .unchanged _
  | currentConfigurationId =>
      show ViewStep v _ v.currentConfigurationId.1
      rcases v.currentConfigurationId_cases with ⟨hdirty, hfresh⟩ | ⟨_, hsame⟩
      · rw [hfresh]
        exact .refreshed hdirty
      · rw [hsame]
        exact .unchanged _

end MembershipView

section Step

variable {v w : MembershipView} {op : ViewOp}

theorem ViewStep.k_eq (h : ViewStep v op w) : w.k = v.k := by
  cases h with
  | added => rfl
  | deleted => rfl
  | cached => rfl
  | refreshed => rfl
  | unchanged => rfl

theorem MembershipView.k_apply (v : MembershipView) (op : ViewOp) : (v.apply op).k = v.k :=
  (v.apply_step op).k_eq

end Step

/-- Views built by `new` or `bootstrap` and then used in any way. -/
def viewSystem : System MembershipView ViewOp where
  init v := (∃ k, MembershipView.new k = .ok v) ∨
    ∃ k ids endpoints, CollisionFree k endpoints.toFinset ∧
      MembershipView.bootstrap k ids endpoints = .ok v
  step v op := some (v.apply op)

/-- An endpoint that is added or deleted collides with no member on any ring. -/
def CollidesNot (v : MembershipView) : ViewOp → Prop
  | .ringAdd endpoint id => ¬ v.isIdentifierPresent id → ¬ v.ringZero.contains endpoint →
      CollisionFree v.k (insert endpoint v.allNodes)
  | .ringDelete endpoint => v.ringZero.contains endpoint →
      CollisionFree v.k (insert endpoint v.allNodes)
  | .getObserversOf _ => True
  | .currentConfigurationId => True

instance (v : MembershipView) (op : ViewOp) : Decidable (CollidesNot v op) :=
  match op with
  | .ringAdd endpoint id => inferInstanceAs (Decidable (¬ v.isIdentifierPresent id →
      ¬ v.ringZero.contains endpoint → CollisionFree v.k (insert endpoint v.allNodes)))
  | .ringDelete endpoint => inferInstanceAs (Decidable (v.ringZero.contains endpoint →
      CollisionFree v.k (insert endpoint v.allNodes)))
  | .getObserversOf _ => .isTrue trivial
  | .currentConfigurationId => .isTrue trivial

theorem MembershipView.Valid.step {v w : MembershipView} (h : v.Valid) {op : ViewOp}
    (hstep : ViewStep v op w) (hop : CollidesNot v op) : w.Valid := by
  cases hstep with
  | added endpoint id hid hring =>
      exact h.added (hop (Bool.eq_false_iff.1 hid) (Bool.eq_false_iff.1 hring))
  | deleted endpoint hring => exact h.deleted (hop hring)
  | cached => exact ⟨h.seeds, h.holds, h.free, h.configuration⟩
  | refreshed => exact ⟨h.seeds, h.holds, h.free, fun _ => rfl⟩
  | unchanged => exact h

theorem MembershipView.Valid.apply {v : MembershipView} (h : v.Valid) {op : ViewOp}
    (hop : CollidesNot v op) : (v.apply op).Valid :=
  h.step (v.apply_step op) hop

theorem MembershipView.Valid.reaches {ok : MembershipView → ViewOp → Prop}
    (hok : ∀ v op, ok v op → CollidesNot v op) {v : MembershipView}
    (h : viewSystem.Reaches ok v) : v.Valid := by
  refine h.invariant ?_ ?_
  · rintro v (⟨k, hnew⟩ | ⟨k, ids, endpoints, hfree, hboot⟩)
    · exact (Valid.of_new hnew).1
    · exact (Valid.of_bootstrap hboot hfree).1
  · intro v op v' _ hv hop hstep
    cases hstep
    exact hv.apply (hok v op hop)

end Rapid
