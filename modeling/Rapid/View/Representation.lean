import Rapid.Foundations.Checked
import Rapid.View.NoRecurrence

/-!
# Representation — the fields of a view agree

Who is a member is recorded in `all_nodes` and once more in every ring; which identifiers were seen, in
`identifiers` and once more in `identifier_objs`. The guards of the updates read ring 0 and `identifiers`
only.

* `WellFormed` — all these records say the same, and the rings are sorted;
* `objs_exact` — the two records of the identifiers agree, with or without hash collisions;
* `view_wellFormed` — so does everything else, in every run whose endpoints do not collide, and a call
  that fails leaves the view as it was.
-/

namespace Rapid

open Foundations

/-! ## The identifiers and their objects -/

namespace MembershipView

/-- `identifiers.iter().map(|k| identifier_objs[k])`; a key without an object is a panic. -/
def indexIdentifiers (v : MembershipView) : Option (List NodeId) :=
  v.identifiers.keys.mapM fun key => v.identifierObjs.lookup key

theorem indexIdentifiers_eq (v : MembershipView) : v.indexIdentifiers = some v.currentIdentifiers :=
  mapM_eq_some v.objs_total

/-- Every object belongs to an identifier. The converse is part of the type. -/
def ObjsKnown (v : MembershipView) : Prop :=
  ∀ key ∈ v.identifierObjs, key ∈ v.identifiers.keys

variable {v w : MembershipView}

theorem ObjsKnown.mem_iff (h : v.ObjsKnown) (key : NodeIdKey) :
    key ∈ v.identifierObjs ↔ key ∈ v.identifiers.keys :=
  ⟨h key, fun hkey => Finmap.lookup_isSome.1 (v.objs_total key hkey)⟩

theorem ObjsKnown.addIdentifier (h : v.ObjsKnown) (id : NodeId) : (v.addIdentifier id).ObjsKnown := by
  intro key hkey
  rw [mem_keys_addIdentifier]
  exact (Finmap.mem_insert.1 hkey).imp_right (h key)

theorem ObjsKnown.of_new {k : UInt8} (h : new k = .ok v) : v.ObjsKnown := by
  unfold new at h
  split at h
  · cases h
    intro key hkey
    exact absurd hkey Finmap.notMem_empty
  · cases h

variable [Xxh64]

theorem ObjsKnown.of_bootstrap {k : UInt8} {ids : List NodeId} {endpoints : List Endpoint}
    (h : bootstrap k ids endpoints = .ok v) : v.ObjsKnown := by
  rcases bootstrap_loops h with ⟨v₀, hnew, rfl⟩
  have hids : (ids.foldl MembershipView.addIdentifier v₀).ObjsKnown :=
    List.foldlRecOn ids _ (of_new hnew) fun v hv id _ => hv.addIdentifier id
  have hendpoints : (endpoints.foldl MembershipView.addEndpoint
      (ids.foldl MembershipView.addIdentifier v₀)).ObjsKnown :=
    List.foldlRecOn endpoints _ hids fun v hv endpoint _ => hv
  exact hendpoints

theorem ObjsKnown.step {op : ViewOp} (h : v.ObjsKnown) (hstep : ViewStep v op w) : w.ObjsKnown := by
  cases hstep with
  | added endpoint id =>
      -- The identifier is added last, after the rings, the members and the cache.
      refine ObjsKnown.addIdentifier ?_ id
      exact h
  | deleted => exact h
  | cached => exact h
  | refreshed => exact h
  | unchanged => exact h

/-- `identifier_objs` has exactly the keys of `identifiers`. -/
theorem objs_exact (h : anyViewSystem.Reachable v) (key : NodeIdKey) :
    key ∈ v.identifierObjs ↔ key ∈ v.identifiers.keys := by
  refine ObjsKnown.mem_iff ?_ key
  refine h.invariant ?_ ?_
  · rintro v (⟨k, hnew⟩ | ⟨k, ids, endpoints, hboot⟩)
    · exact .of_new hnew
    · exact .of_bootstrap hboot
  · intro v op v' _ hv _ hstep
    cases hstep
    exact hv.step (v.apply_step op)

end MembershipView

/-! ## Rings and members -/

section

variable [Xxh64]

/-- The ring lists these endpoints, each once, by their address hash read as a signed number. -/
structure Ring.Lists (ring : Ring) (seed : UInt64) (nodes : Finset Endpoint) : Prop where
  mem : ∀ e, e ∈ ring.ordered ↔ e ∈ nodes
  once : ring.ordered.Nodup
  sorted : ring.ordered.Pairwise fun a b =>
    (addressHash seed a).toInt64 < (addressHash seed b).toInt64

theorem Ring.Holds.lists {ring : Ring} {nodes : Finset Endpoint} (h : ring.Holds nodes) :
    ring.Lists ring.seed nodes where
  mem _ := h.mem_ordered
  once := h.nodup_ordered
  sorted := by
    refine List.pairwise_map.2 (ring.byHash.sorted.imp_of_mem ?_)
    intro p q hp hq hlt
    -- Every entry is stored under the hash of its endpoint.
    rw [((h p).1 hp).2, ((h q).1 hq).2] at hlt
    exact hlt

namespace MembershipView

/-- All records of the members and of the identifiers agree. -/
structure WellFormed (v : MembershipView) : Prop where
  count : v.rings.length = v.k.toNat
  rings : ∀ i (h : i < v.rings.length), v.rings[i].Lists i.toUInt64 v.allNodes
  size : v.membershipSize = v.allNodes.card
  objs : ∀ key, key ∈ v.identifierObjs ↔ key ∈ v.identifiers.keys
  indexed : v.indexIdentifiers = some v.currentIdentifiers

variable {v : MembershipView}

theorem Valid.wellFormed (h : v.Valid) (hreach : anyViewSystem.Reachable v) : v.WellFormed where
  count := v.rings_length
  rings i hi := by
    have hring := (h.holds _ (List.getElem_mem hi)).lists
    rw [h.seeds i hi] at hring
    exact hring
  size := (h.holds _ ringZero_mem).len
  objs := objs_exact hreach
  indexed := v.indexIdentifiers_eq

end MembershipView

/-! ## Runs over endpoints that do not collide -/

/-- The endpoint that an update adds or deletes. -/
def ViewOp.endpoint? : ViewOp → Option Endpoint
  | .ringAdd endpoint _ => some endpoint
  | .ringDelete endpoint => some endpoint
  | .getObserversOf _ => none
  | .currentConfigurationId => none

def usedEndpoints (ops : List ViewOp) : Finset Endpoint :=
  (ops.filterMap ViewOp.endpoint?).toFinset

omit [Xxh64] in
theorem mem_usedEndpoints {ops : List ViewOp} {e : Endpoint} :
    e ∈ usedEndpoints ops ↔ ∃ op ∈ ops, op.endpoint? = some e := by
  rw [usedEndpoints, List.mem_toFinset, List.mem_filterMap]

/-- The view that a run starts from, and the endpoints it is built with. -/
inductive Starts (k : UInt8) : List Endpoint → MembershipView → Prop
  | new {v : MembershipView} : MembershipView.new k = .ok v → Starts k [] v
  | bootstrap {v : MembershipView} {ids : List NodeId} {endpoints : List Endpoint} :
      MembershipView.bootstrap k ids endpoints = .ok v → Starts k endpoints v

theorem Starts.init {k : UInt8} {endpoints : List Endpoint} {v : MembershipView}
    (h : Starts k endpoints v) (hfree : CollisionFree k endpoints.toFinset) :
    viewSystem.init v ∧ anyViewSystem.init v ∧ v.k = k ∧ v.allNodes = endpoints.toFinset := by
  cases h with
  | new hnew =>
      rcases MembershipView.Valid.of_new hnew with ⟨_, hk, hnodes, _, _⟩
      exact ⟨.inl ⟨k, hnew⟩, .inl ⟨k, hnew⟩, hk, hnodes⟩
  | bootstrap hboot =>
      rcases MembershipView.bootstrap_holds hboot with ⟨hk, hnodes, _⟩
      exact ⟨.inr ⟨k, _, _, hfree, hboot⟩, .inr ⟨k, _, _, hboot⟩, hk, hnodes⟩

namespace MembershipView

variable {v : MembershipView} {op : ViewOp} {pool : Finset Endpoint}

/-- The members come from the endpoints that the updates name. -/
theorem allNodes_subset_of_step {w : MembershipView} (hstep : ViewStep v op w)
    (hmembers : v.allNodes ⊆ pool) (hop : ∀ e, op.endpoint? = some e → e ∈ pool) :
    w.allNodes ⊆ pool := by
  cases hstep with
  | added endpoint => exact Finset.insert_subset (hop endpoint rfl) hmembers
  | deleted endpoint => exact (Finset.erase_subset _ _).trans hmembers
  | cached => exact hmembers
  | refreshed => exact hmembers
  | unchanged => exact hmembers

theorem collidesNot_of_pool (hmembers : v.allNodes ⊆ pool)
    (hop : ∀ e, op.endpoint? = some e → e ∈ pool) (hfree : CollisionFree v.k pool) :
    CollidesNot v op := by
  have hnamed : ∀ e, op.endpoint? = some e → CollisionFree v.k (insert e v.allNodes) :=
    fun e he => hfree.subset (Finset.insert_subset (hop e he) hmembers)
  cases op with
  | ringAdd endpoint id => exact fun _ _ => hnamed endpoint rfl
  | ringDelete endpoint => exact fun _ => hnamed endpoint rfl
  | getObserversOf node => trivial
  | currentConfigurationId => trivial

/-- A run over a pool of endpoints that do not collide meets the guard of `viewSystem` at every call. -/
theorem reaches_of_pool (ops : List ViewOp) :
    ∀ {v : MembershipView}, viewSystem.Reaches CollidesNot v → v.allNodes ⊆ pool →
      CollisionFree v.k pool → usedEndpoints ops ⊆ pool →
        viewSystem.Reaches CollidesNot (v.applyAll ops) := by
  induction ops with
  | nil => exact fun h _ _ _ => h
  | cons op ops ih =>
      intro v h hmembers hfree hused
      have hop : ∀ e, op.endpoint? = some e → e ∈ pool :=
        fun e he => hused (mem_usedEndpoints.2 ⟨op, List.mem_cons_self, he⟩)
      have hrest : usedEndpoints ops ⊆ pool := by
        intro e he
        rcases mem_usedEndpoints.1 he with ⟨op', hop', hnamed⟩
        exact hused (mem_usedEndpoints.2 ⟨op', List.mem_cons_of_mem _ hop', hnamed⟩)
      -- The rest of the run starts from members of the same pool.
      refine ih (.step h (collidesNot_of_pool hmembers hop hfree) rfl)
        (allNodes_subset_of_step (v.apply_step op) hmembers hop) ?_ hrest
      rw [k_apply]
      exact hfree

/-! ## Calls that fail -/

/-- The guards come before the first change, also to the cache and to the configuration id. -/
theorem ringAdd_of_error {e : Endpoint} {id : NodeId} {err : Error}
    (h : (v.ringAdd e id).2 = .error err) : (v.ringAdd e id).1 = v := by
  rcases v.ringAdd_cases e id with ⟨_, _, hadd⟩ | ⟨_, hadd⟩
  · rw [hadd] at h
    cases h
  · rw [hadd]

theorem ringDelete_of_error {e : Endpoint} {err : Error} (h : (v.ringDelete e).2 = .error err) :
    (v.ringDelete e).1 = v := by
  rcases v.ringDelete_cases e with ⟨_, hdelete⟩ | ⟨_, hdelete⟩
  · rw [hdelete] at h
    cases h
  · rw [hdelete]

end MembershipView

/-- In every run whose endpoints do not collide the view is well formed, and a call that fails changes
nothing. -/
theorem view_wellFormed {k : UInt8} {endpoints : List Endpoint} {start : MembershipView}
    (hstart : Starts k endpoints start) (ops : List ViewOp)
    (hfree : CollisionFree k (endpoints.toFinset ∪ usedEndpoints ops)) :
    let v := start.applyAll ops
    v.WellFormed ∧
      (∀ e id err, (v.ringAdd e id).2 = .error err → (v.ringAdd e id).1 = v) ∧
        ∀ e err, (v.ringDelete e).2 = .error err → (v.ringDelete e).1 = v := by
  intro v
  rcases hstart.init (hfree.subset Finset.subset_union_left) with ⟨hinit, hany, hk, hnodes⟩
  have hmembers : start.allNodes ⊆ endpoints.toFinset ∪ usedEndpoints ops := by
    rw [hnodes]
    exact Finset.subset_union_left
  -- The pool of the run: what the view was built with and what the updates name.
  have hreach : viewSystem.Reaches CollidesNot v :=
    MembershipView.reaches_of_pool ops (.start hinit) hmembers (hk ▸ hfree) Finset.subset_union_right
  have hvalid : v.Valid := .reaches (fun _ _ h => h) hreach
  refine ⟨hvalid.wellFormed (MembershipView.reaches_applyAll ops (.start hany)), ?_, ?_⟩
  · intro e id err herr
    exact MembershipView.ringAdd_of_error herr
  · intro e err herr
    exact MembershipView.ringDelete_of_error herr

end

/-! ### A run with repeated endpoints and rejected calls -/

section Sample

attribute [local instance] xxh64Reference

def repeatedHosts : List Endpoint := [hostA, hostB, hostA]

def repeatedStart : Except Error MembershipView :=
  MembershipView.bootstrap 3 [⟨1, 1⟩, ⟨1, 1⟩] repeatedHosts

/-- The first two additions and the second deletion are rejected. -/
def mixedUpdates : List ViewOp :=
  [.getObserversOf hostA, .ringAdd hostC ⟨1, 1⟩, .ringAdd hostB ⟨2, 2⟩, .currentConfigurationId,
    .ringAdd hostC ⟨2, 2⟩, .ringDelete hostB, .ringDelete hostB]

theorem mixedUpdates_wellFormed :
    ∃ start, repeatedStart.toOption = some start ∧
      (start.applyAll mixedUpdates).allNodes = {hostA, hostC} ∧
      (start.applyAll mixedUpdates).WellFormed ∧
      ((start.applyAll mixedUpdates).ringAdd hostA ⟨3, 3⟩).2 =
        .error (.protocolRejected (.endpointAlreadyInRing hostA)) ∧
      ((start.applyAll mixedUpdates).ringAdd hostA ⟨3, 3⟩).1 = start.applyAll mixedUpdates := by
  have hfacts : (repeatedStart.toOption.map fun start =>
      (decide ((start.applyAll mixedUpdates).allNodes = {hostA, hostC}),
        (start.applyAll mixedUpdates).isIdentifierPresent ⟨3, 3⟩,
        (start.applyAll mixedUpdates).ringZero.contains hostA)) = some (true, false, true) := by
    decide +kernel
  have hfree : CollisionFree 3 (repeatedHosts.toFinset ∪ usedEndpoints mixedUpdates) := by
    decide +kernel
  rcases Option.map_eq_some_iff.1 hfacts with ⟨start, hstart, heq⟩
  simp only [Prod.mk.injEq, decide_eq_true_eq] at heq
  rcases heq with ⟨hnodes, hid, hring⟩
  rcases view_wellFormed (.bootstrap (eq_ok_of_toOption hstart)) mixedUpdates hfree with
    ⟨hwell, hadd, _⟩
  have hrejected : ((start.applyAll mixedUpdates).ringAdd hostA ⟨3, 3⟩).2 =
      .error (.protocolRejected (.endpointAlreadyInRing hostA)) := by
    unfold MembershipView.ringAdd
    rw [hid, hring]
    rfl
  exact ⟨start, hstart, hnodes, hwell, hrejected, hadd _ _ _ hrejected⟩

end Sample

end Rapid
