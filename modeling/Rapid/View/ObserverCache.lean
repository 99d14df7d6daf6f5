import Rapid.View.Topology

/-!
# ObserverCache — when a cached observer list is stale

`get_observers_of` remembers the list it computed. `ring_add` and `ring_delete` drop the lists of the
nodes that `lower` finds just before the endpoint. On a ring that the endpoint starts, its
predecessor is the last node, and `lower` does not wrap around: that list survives unless another
ring drops it (`PredecessorsDropped`). This is the only way a stale list can be left behind.
-/

namespace Rapid

open Foundations

section Cache

variable [Xxh64]

/-! ## One ring: only the predecessor's successor changes -/

namespace Ring

variable {ring : Ring} {nodes : Finset Endpoint} {x e : Endpoint}

@[simp] theorem key_insert : (ring.insert e).1.key x = ring.key x := by
  simp only [key, seed_insert]

@[simp] theorem key_remove : (ring.remove e).1.key x = ring.key x := rfl

theorem byHash_insert (h : ring.Holds nodes)
    (hfree : Set.InjOn ring.key (Insert.insert e nodes : Finset Endpoint)) (he : e ∉ nodes) :
    (ring.insert e).1.byHash = ring.byHash.insert (ring.key e) e := by
  have habsent : ¬ ring.byHash.containsKey (ring.key e) := fun hkey => he ((h.contains_iff hfree).1 hkey)
  simp only [insert, habsent, Bool.false_eq_true, if_false]

theorem lower_insert : (ring.insert e).1.lower e = ring.lower e := by
  unfold insert
  dsimp only
  split
  · rfl
  · show ((ring.byHash.insert (ring.key e) e).lowerEntry (ring.key e)).map Prod.snd = ring.lower e
    rw [OrderedMap.lowerEntry_insert]
    rfl

theorem prevEntry_ne (hprev : ring.predecessor e ≠ some x) :
    ring.byHash.prevEntry (ring.key e) ≠ some (ring.key x, x) := by
  intro hentry
  apply hprev
  rw [predecessor_eq, hentry]
  rfl

theorem Holds.successor_insert (h : ring.Holds nodes)
    (hfree : Set.InjOn ring.key (Insert.insert e nodes : Finset Endpoint)) (he : e ∉ nodes)
    (hx : x ∈ nodes) (hprev : ring.predecessor e ≠ some x) :
    (ring.insert e).1.successor x = ring.successor x := by
  have hfresh : ∀ r ∈ ring.byHash.entries, r.1 ≠ ring.key e := by
    intro r hr hkey
    apply he
    refine (h.contains_iff hfree).1 (OrderedMap.containsKey_eq_true.2 ⟨r.2, ?_⟩)
    rw [← hkey]
    exact hr
  have hnext := OrderedMap.nextEntry_insert (v := e) (h.entry_mem hx) hfresh (prevEntry_ne hprev)
  rw [successor_eq, successor_eq, key_insert, byHash_insert h hfree he]
  exact congrArg (Option.map Prod.snd) hnext

theorem Holds.successor_remove (h : ring.Holds nodes)
    (hfree : Set.InjOn ring.key (nodes : Set Endpoint)) (he : e ∈ nodes) (hx : x ∈ nodes)
    (hne : x ≠ e) (hprev : ring.predecessor e ≠ some x) :
    (ring.remove e).1.successor x = ring.successor x := by
  have hkey : ring.key x ≠ ring.key e := fun heq => hne (hfree hx he heq)
  have hnext :=
    OrderedMap.nextEntry_remove (h.entry_mem he) (h.entry_mem hx) hkey (prevEntry_ne hprev)
  rw [successor_eq, successor_eq, key_remove]
  exact congrArg (Option.map Prod.snd) hnext

end Ring

/-! ## Dropping lists from the cache -/

namespace MembershipView

variable {v w : MembershipView} {x e : Endpoint} {id : NodeId}

omit [Xxh64] in
theorem lookup_dropCached {cache : Finmap fun _ : EndpointKey => List Endpoint}
    {keys : List EndpointKey} {observers : List Endpoint}
    (h : (dropCached cache keys).lookup x = some observers) :
    cache.lookup x = some observers ∧ x ∉ keys := by
  induction keys generalizing cache with
  | nil => exact ⟨h, List.not_mem_nil⟩
  | cons key keys ih =>
      rcases ih h with ⟨hlookup, hkeys⟩
      by_cases hx : x = key
      · subst hx
        rw [Finmap.lookup_erase] at hlookup
        cases hlookup
      · rw [Finmap.lookup_erase_ne hx] at hlookup
        refine ⟨hlookup, ?_⟩
        intro hmem
        rcases List.mem_cons.1 hmem with heq | hmem
        · exact hx heq
        · exact hkeys hmem

/-- Every cached list belongs to a member and is the list computed from the current rings. -/
def Coherent (v : MembershipView) : Prop :=
  ∀ x observers, v.cachedObservers.lookup x = some observers →
    x ∈ v.allNodes ∧ observers = v.computeObserversOf x

/-- On every ring that `e` starts, the last node has no cached list, or `lower` finds it before `e`
on another ring. -/
def PredecessorsDropped (v : MembershipView) (e : Endpoint) : Prop :=
  ∀ ring ∈ v.rings, ring.lower e = none → ∀ x ∈ ring.last, x ≠ e →
    x ∈ v.cachedObservers → ∃ ring' ∈ v.rings, ring'.lower e = some x

instance (v : MembershipView) (e : Endpoint) : Decidable (v.PredecessorsDropped e) :=
  inferInstanceAs (Decidable (∀ ring ∈ v.rings, ring.lower e = none → ∀ x ∈ ring.last, x ≠ e →
    x ∈ v.cachedObservers → ∃ ring' ∈ v.rings, ring'.lower e = some x))

/-- A list that is kept belongs to no predecessor of `e`. -/
theorem PredecessorsDropped.predecessor_ne (h : v.PredecessorsDropped e) (hne : x ≠ e)
    (hcached : x ∈ v.cachedObservers) (hkept : ∀ ring ∈ v.rings, ring.lower e ≠ some x) :
    ∀ ring ∈ v.rings, ring.predecessor e ≠ some x := by
  intro ring hring hprev
  cases hlower : ring.lower e with
  | some y =>
      rw [Ring.predecessor, hlower, Option.some_or] at hprev
      exact hkept ring hring (hlower.trans hprev)
  | none =>
      rw [Ring.predecessor, hlower, Option.none_or] at hprev
      rcases h ring hring hlower x hprev hne hcached with ⟨ring', hring', hfound⟩
      exact hkept ring' hring' hfound

theorem computeObserversOf_congr {f : Ring → Ring} (hrings : w.rings = v.rings.map f)
    (hsuccessor : ∀ ring ∈ v.rings, (f ring).successor x = ring.successor x)
    (hv : 2 ≤ v.membershipSize) (hw : 2 ≤ w.membershipSize) :
    w.computeObserversOf x = v.computeObserversOf x := by
  have hv' : ¬ v.ringZero.len ≤ 1 := Nat.not_le.2 hv
  have hw' : ¬ w.ringZero.len ≤ 1 := Nat.not_le.2 hw
  have hlists : w.rings.filterMap (fun ring => ring.successor x) =
      v.rings.filterMap fun ring => ring.successor x := by
    rw [hrings, List.filterMap_map]
    exact List.filterMap_congr hsuccessor
  simp only [computeObserversOf, hv', hw', if_false]
  exact hlists

/-! ## Every operation keeps the cache coherent -/

theorem Coherent.added (hc : v.Coherent) (h : v.Valid)
    (hfree : CollisionFree v.k (insert e v.allNodes)) (he : e ∉ v.allNodes)
    (hdrop : v.PredecessorsDropped e) : (v.added e id).Coherent := by
  intro x observers hlookup
  rcases lookup_dropCached hlookup with ⟨hold, hkept⟩
  rcases hc x observers hold with ⟨hx, rfl⟩
  have hne : x ≠ e := fun heq => he (heq ▸ hx)
  have hlower : ∀ ring ∈ v.rings, ring.lower e ≠ some x := by
    intro ring hring hfound
    apply hkept
    refine List.mem_filterMap.2 ⟨(ring.insert e).1, List.mem_map_of_mem hring, ?_⟩
    rw [Ring.lower_insert]
    exact hfound
  have hprev := hdrop.predecessor_ne hne (Finmap.mem_of_lookup_eq_some hold) hlower
  -- The predecessor of `e` on ring 0 is a second member.
  rcases (h.holds _ ringZero_mem).exists_predecessor hx e with ⟨y, hy, hyprev⟩
  have hyx : y ≠ x := by
    rintro rfl
    exact hprev _ ringZero_mem hyprev
  have htwo : 2 ≤ v.allNodes.card := Finset.one_lt_card.2 ⟨y, hy, x, hx, hyx⟩
  have hmore : v.allNodes.card ≤ (insert e v.allNodes).card :=
    Finset.card_le_card (Finset.subset_insert _ _)
  have hvalid : (v.added e id).Valid := h.added hfree
  refine ⟨Finset.mem_insert_of_mem hx, (computeObserversOf_congr rfl ?_ ?_ ?_).symm⟩
  · intro ring hring
    exact (h.holds _ hring).successor_insert (h.injOn hfree hring) he hx (hprev ring hring)
  · rw [h.membershipSize_eq]
    exact htwo
  · rw [hvalid.membershipSize_eq]
    exact le_trans htwo hmore

theorem Coherent.deleted (hc : v.Coherent) (h : v.Valid) (he : e ∈ v.allNodes)
    (hdrop : v.PredecessorsDropped e) : (v.deleted e).Coherent := by
  intro x observers hlookup
  rcases lookup_dropCached hlookup with ⟨hold, hkept⟩
  have hne : x ≠ e := by
    rintro rfl
    rw [Finmap.lookup_erase] at hold
    cases hold
  rw [Finmap.lookup_erase_ne hne] at hold
  rcases hc x observers hold with ⟨hx, rfl⟩
  have hlower : ∀ ring ∈ v.rings, ring.lower e ≠ some x := by
    intro ring hring hfound
    exact hkept (List.mem_filterMap.2 ⟨ring, hring, hfound⟩)
  have hprev := hdrop.predecessor_ne hne (Finmap.mem_of_lookup_eq_some hold) hlower
  have hfree : CollisionFree v.k (insert e v.allNodes) := by
    rw [Finset.insert_eq_of_mem he]
    exact h.free
  -- The predecessor of `e` on ring 0 is a third member.
  have hzero := h.holds _ ringZero_mem
  have htwo : 2 ≤ v.allNodes.card := Finset.one_lt_card.2 ⟨x, hx, e, he, hne⟩
  rcases hzero.exists_predecessor he e with ⟨y, hy, hyprev⟩
  have hyx : y ≠ x := by
    rintro rfl
    exact hprev _ ringZero_mem hyprev
  have hye : y ≠ e := by
    rintro rfl
    exact hzero.successor_ne_self htwo he ((hzero.successor_iff_predecessor he he).2 hyprev)
  have hleft : 2 ≤ (v.allNodes.erase e).card :=
    Finset.one_lt_card.2 ⟨y, Finset.mem_erase.2 ⟨hye, hy⟩, x, Finset.mem_erase.2 ⟨hne, hx⟩, hyx⟩
  have hvalid : (v.deleted e).Valid := h.deleted hfree
  refine ⟨Finset.mem_erase.2 ⟨hne, hx⟩, (computeObserversOf_congr rfl ?_ ?_ ?_).symm⟩
  · intro ring hring
    exact (h.holds _ hring).successor_remove (h.injOn h.free hring) he hx hne (hprev ring hring)
  · rw [h.membershipSize_eq]
    exact htwo
  · rw [hvalid.membershipSize_eq]
    exact hleft

/-- An accepted addition or deletion drops the list of every predecessor of its endpoint. -/
def InvalidatesAll (v : MembershipView) : ViewOp → Prop
  | .ringAdd endpoint id => ¬ v.isIdentifierPresent id → ¬ v.ringZero.contains endpoint →
      v.PredecessorsDropped endpoint
  | .ringDelete endpoint => v.ringZero.contains endpoint → v.PredecessorsDropped endpoint
  | .getObserversOf _ => True
  | .currentConfigurationId => True

instance (v : MembershipView) (op : ViewOp) : Decidable (v.InvalidatesAll op) :=
  match op with
  | .ringAdd endpoint id => inferInstanceAs (Decidable (¬ v.isIdentifierPresent id →
      ¬ v.ringZero.contains endpoint → v.PredecessorsDropped endpoint))
  | .ringDelete endpoint => inferInstanceAs (Decidable (v.ringZero.contains endpoint →
      v.PredecessorsDropped endpoint))
  | .getObserversOf _ => .isTrue trivial
  | .currentConfigurationId => .isTrue trivial

theorem Coherent.apply (hc : v.Coherent) (h : v.Valid) {op : ViewOp} (hfree : CollidesNot v op)
    (hdrop : v.InvalidatesAll op) : (v.apply op).Coherent := by
  have hstep := v.apply_step op
  generalize v.apply op = w at hstep ⊢
  cases hstep with
  | added endpoint id hid hring =>
      have hfree' := hfree (Bool.eq_false_iff.1 hid) (Bool.eq_false_iff.1 hring)
      -- An accepted endpoint is new, for ring 0 holds exactly the members.
      have he : endpoint ∉ v.allNodes :=
        fun hmem => Bool.eq_false_iff.1 hring ((h.contains_ringZero hfree').2 hmem)
      exact hc.added h hfree' he (hdrop (Bool.eq_false_iff.1 hid) (Bool.eq_false_iff.1 hring))
  | deleted endpoint hring =>
      have he : endpoint ∈ v.allNodes := (h.contains_ringZero (hfree hring)).1 hring
      exact hc.deleted h he (hdrop hring)
  | cached node hmember =>
      intro x observers hlookup
      by_cases hx : x = node
      · subst hx
        rw [Finmap.lookup_insert] at hlookup
        cases hlookup
        exact ⟨hmember, rfl⟩
      · rw [Finmap.lookup_insert_of_ne _ hx] at hlookup
        exact hc x observers hlookup
  | refreshed => exact hc
  | unchanged => exact hc

/-! ## Runs -/

theorem Coherent.of_empty (h : v.cachedObservers = ∅) : v.Coherent := by
  intro x observers hlookup
  rw [h, Finmap.lookup_empty] at hlookup
  cases hlookup

omit [Xxh64] in
theorem cachedObservers_new {k : UInt8} (h : new k = .ok v) : v.cachedObservers = ∅ := by
  unfold new at h
  split at h
  · cases h
    rfl
  · cases h

/-- Both loops of `bootstrap` leave the cache alone. -/
theorem cachedObservers_bootstrap {k : UInt8} {ids : List NodeId} {endpoints : List Endpoint}
    (h : bootstrap k ids endpoints = .ok v) : v.cachedObservers = ∅ := by
  rcases bootstrap_loops h with ⟨v₀, hnew, rfl⟩
  have hids : (ids.foldl addIdentifier v₀).cachedObservers = ∅ :=
    List.foldlRecOn ids addIdentifier
      (motive := fun u : MembershipView => u.cachedObservers = ∅) (cachedObservers_new hnew)
      fun _ hu _ _ => hu
  exact List.foldlRecOn endpoints addEndpoint
    (motive := fun u : MembershipView => u.cachedObservers = ∅) hids fun _ hu _ _ => hu

theorem Coherent.reaches
    (h : viewSystem.Reaches (fun v op => CollidesNot v op ∧ v.InvalidatesAll op) v) : v.Coherent := by
  refine h.invariant ?_ ?_
  · rintro v (⟨k, hnew⟩ | ⟨k, ids, endpoints, _, hboot⟩)
    · exact .of_empty (cachedObservers_new hnew)
    · exact .of_empty (cachedObservers_bootstrap hboot)
  · intro v op v' hreach hc hok hstep
    cases hstep
    exact hc.apply (.reaches (fun _ _ h => h.1) hreach) hok.1 hok.2

theorem Coherent.getObserversOf_eq (hc : v.Coherent) (hx : x ∈ v.allNodes) :
    (v.getObserversOf x).2 = .ok (v.computeObserversOf x) := by
  have hpresent : v.isHostPresent x = true := decide_eq_true hx
  unfold MembershipView.getObserversOf
  rw [if_pos hpresent]
  split
  · rename_i cached hlookup
    rw [(hc x cached hlookup).2]
  · rfl

theorem Valid.computeObserversOf_subset (h : v.Valid) (hx : x ∈ v.allNodes) :
    ∀ o ∈ v.computeObserversOf x, o ∈ v.allNodes := by
  intro o ho
  unfold MembershipView.computeObserversOf at ho
  split at ho
  · cases ho
  · rcases List.mem_filterMap.1 ho with ⟨ring, hring, hsuccessor⟩
    rcases (h.holds ring hring).exists_successor hx with ⟨o', ho', hsuccessor'⟩
    have heq : o' = o := Option.some.inj (hsuccessor'.symm.trans hsuccessor)
    exact heq ▸ ho'

/-! ## A stale list has no self-observer

Whether a cached list is stale or not, its node was a member when the list was computed. -/

/-- A cached list was cached before, or it has just been computed for a member. -/
theorem lookup_cachedObservers_apply {op : ViewOp} {observers : List Endpoint}
    (h : (v.apply op).cachedObservers.lookup x = some observers) :
    v.cachedObservers.lookup x = some observers ∨
      (x ∈ v.allNodes ∧ observers = v.computeObserversOf x) := by
  have hstep := v.apply_step op
  generalize v.apply op = w at hstep h
  cases hstep with
  | added endpoint id => exact .inl (lookup_dropCached h).1
  | deleted endpoint =>
      -- The list of the deleted node is dropped, the others were there.
      have hkept := (lookup_dropCached h).1
      by_cases hx : x = endpoint
      · rw [hx, Finmap.lookup_erase] at hkept
        cases hkept
      · rw [Finmap.lookup_erase_ne hx] at hkept
        exact .inl hkept
  | cached node hmember =>
      by_cases hx : x = node
      · rw [hx, Finmap.lookup_insert] at h
        cases h
        exact .inr ⟨hx ▸ hmember, by rw [hx]⟩
      · rw [Finmap.lookup_insert_of_ne _ hx] at h
        exact .inl h
  | refreshed => exact .inl h
  | unchanged => exact .inl h

/-- No cached list names the node that it belongs to. -/
def NoSelfObserver (v : MembershipView) : Prop :=
  ∀ x observers, v.cachedObservers.lookup x = some observers → x ∉ observers

theorem NoSelfObserver.apply (hn : v.NoSelfObserver) (h : v.Valid) (op : ViewOp) :
    (v.apply op).NoSelfObserver := by
  intro x observers hlookup
  rcases lookup_cachedObservers_apply hlookup with hold | ⟨hx, rfl⟩
  · exact hn x observers hold
  · exact h.notMem_computeObserversOf hx

omit [Xxh64] in
theorem NoSelfObserver.of_empty (h : v.cachedObservers = ∅) : v.NoSelfObserver := by
  intro x observers hlookup
  rw [h, Finmap.lookup_empty] at hlookup
  cases hlookup

theorem NoSelfObserver.reaches (h : viewSystem.Reaches CollidesNot v) : v.NoSelfObserver := by
  refine h.invariant ?_ ?_
  · rintro v (⟨k, hnew⟩ | ⟨k, ids, endpoints, _, hboot⟩)
    · exact .of_empty (cachedObservers_new hnew)
    · exact .of_empty (cachedObservers_bootstrap hboot)
  · intro v op v' hreach hn _ hstep
    cases hstep
    exact hn.apply (.reaches (fun _ _ h => h) hreach) op

end MembershipView

open MembershipView in
/-- As long as every accepted update drops the list of every predecessor of its endpoint, the cache
cannot be told from a fresh computation. -/
theorem observerCache_coherent {v : MembershipView}
    (hv : viewSystem.Reaches (fun v op => CollidesNot v op ∧ v.InvalidatesAll op) v) {x : Endpoint}
    (hx : v.isHostPresent x) :
    (v.getObserversOf x).2 = .ok (v.computeObserversOf x) ∧
      ∀ o ∈ v.computeObserversOf x, v.isHostPresent o := by
  have hvalid : v.Valid := .reaches (fun _ _ h => h.1) hv
  have hmember : x ∈ v.allNodes := of_decide_eq_true hx
  refine ⟨(Coherent.reaches hv).getObserversOf_eq hmember, ?_⟩
  intro o ho
  exact decide_eq_true (hvalid.computeObserversOf_subset hmember o ho)

end Cache

/-! ### Two histories with a wrap-around -/

section Wrap

attribute [local instance] xxh64Reference

/-- `hostC` starts ring 1, whose last node `hostB` has no cached list yet. -/
def coherentHistory : Option MembershipView :=
  (MembershipView.bootstrap 3 [] [hostA, hostB]).toOption.bind fun v =>
    viewSystem.execWhile (fun v op => CollidesNot v op ∧ v.InvalidatesAll op) v
      [.getObserversOf hostA, .ringAdd hostC ⟨1, 1⟩, .getObserversOf hostB, .ringDelete hostA]

theorem coherentHistory_observers :
    ∃ v, coherentHistory = some v ∧ (v.getObserversOf hostB).2 = .ok (v.computeObserversOf hostB) := by
  have hfacts : (coherentHistory.map fun v => v.isHostPresent hostB) = some true := by
    decide +kernel
  rcases Option.map_eq_some_iff.1 hfacts with ⟨v, hv, hpresent⟩
  rcases Option.bind_eq_some_iff.1 hv with ⟨v₀, hv₀, hrun⟩
  have hfree : CollisionFree 3 [hostA, hostB].toFinset := by
    decide +kernel
  have hinit : viewSystem.init v₀ := Or.inr ⟨3, _, _, hfree, eq_ok_of_toOption hv₀⟩
  exact ⟨v, hv, (observerCache_coherent (System.Reaches.execWhile (.start hinit) hrun) hpresent).1⟩

/-- This endpoint is before `hostA` on each of the first ten rings. -/
def hostBelow : Endpoint :=
  hostEndpoint "127.0.0.2" 206

/-- `hostBelow` starts all ten rings and `hostA` ends them: `hostA` keeps its list when `hostBelow`
leaves. -/
def wrapHistory : Option MembershipView :=
  (MembershipView.bootstrap 10 [] [hostA, hostBelow]).toOption.bind fun v =>
    viewSystem.execWhile CollidesNot v [.getObserversOf hostA, .ringDelete hostBelow]

theorem wrapHistory_stale :
    ∃ v, wrapHistory = some v ∧ viewSystem.Reaches CollidesNot v ∧ v.isHostPresent hostA ∧
      (v.getObserversOf hostA).2 = .ok (List.replicate 10 hostBelow) ∧
      v.computeObserversOf hostA = [] ∧ ¬ v.isHostPresent hostBelow := by
  have hfacts : (wrapHistory.map fun v =>
      (v.isHostPresent hostA, (v.getObserversOf hostA).2.toOption, v.computeObserversOf hostA,
        v.isHostPresent hostBelow)) =
      some (true, some (List.replicate 10 hostBelow), [], false) := by
    decide +kernel
  rcases Option.map_eq_some_iff.1 hfacts with ⟨v, hv, heq⟩
  simp only [Prod.mk.injEq] at heq
  rcases heq with ⟨hA, hcached, hcomputed, hbelow⟩
  rcases Option.bind_eq_some_iff.1 hv with ⟨v₀, hv₀, hrun⟩
  have hfree : CollisionFree 10 [hostA, hostBelow].toFinset := by
    decide +kernel
  have hinit : viewSystem.init v₀ := Or.inr ⟨10, _, _, hfree, eq_ok_of_toOption hv₀⟩
  refine ⟨v, hv, System.Reaches.execWhile (.start hinit) hrun, hA, eq_ok_of_toOption hcached,
    hcomputed, ?_⟩
  rw [hbelow]
  decide

end Wrap

end Rapid
