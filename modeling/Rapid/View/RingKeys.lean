import Rapid.View.ViewInvariant

/-!
# RingKeys — what holds of every view, with or without hash collisions

`Valid` needs endpoints whose hashes do not collide. Two facts do not: every entry of a ring is stored
under the hash of its endpoint, so that no endpoint is listed twice; and a configuration id that is
not marked dirty is the one of the identifiers and the ring-0 list that the view has now.
-/

namespace Rapid

open Foundations

variable [Xxh64]

/-- Every entry is stored under the key of its endpoint. -/
def Ring.Keyed (ring : Ring) : Prop :=
  ∀ p ∈ ring.byHash.entries, p.1 = ring.key p.2

section Keyed

variable {ring : Ring} {e : Endpoint}

theorem Ring.Keyed.insert (h : ring.Keyed) : (ring.insert e).1.Keyed := by
  unfold Ring.insert
  dsimp only
  split
  · exact h
  · intro p hp
    rcases OrderedMap.mem_insert.1 hp with rfl | ⟨hold, _⟩
    · rfl
    · exact h p hold

theorem Ring.Keyed.remove (h : ring.Keyed) : (ring.remove e).1.Keyed :=
  fun p hp => h p (OrderedMap.mem_remove.1 hp).1

theorem Ring.Keyed.nodup_ordered (h : ring.Keyed) : ring.ordered.Nodup := by
  refine List.Nodup.map_on ?_ ring.byHash.nodup_entries
  intro p hp q hq heq
  refine Prod.ext ?_ heq
  rw [h p hp, h q hq, heq]

end Keyed

/-! ## Views -/

/-- Views built by `new` or `bootstrap` from any endpoints, and then used in any way. -/
def anyViewSystem : System MembershipView ViewOp where
  init v := (∃ k, MembershipView.new k = .ok v) ∨
    ∃ k ids endpoints, MembershipView.bootstrap k ids endpoints = .ok v
  step v op := some (v.apply op)

namespace MembershipView

structure WellKept (v : MembershipView) : Prop where
  keyed : ∀ ring ∈ v.rings, ring.Keyed
  fresh : v.configurationDirty = false →
    v.configurationId = configurationIdFor v.currentIdentifiers v.ringZero.ordered

variable {v : MembershipView} {e : Endpoint} {id : NodeId}

theorem WellKept.nodup_ringZero (h : v.WellKept) : v.ringZero.ordered.Nodup :=
  (h.keyed _ v.ringZero_mem).nodup_ordered

/-- The rings are updated one by one, and the id is marked dirty. -/
theorem WellKept.update (h : v.WellKept) {w : MembershipView} {f : Ring → Ring}
    (hrings : w.rings = v.rings.map f) (hf : ∀ ring, ring.Keyed → (f ring).Keyed)
    (hdirty : w.configurationDirty = true) : w.WellKept := by
  refine ⟨?_, fun hclean => ?_⟩
  · intro ring hring
    rw [hrings] at hring
    rcases List.mem_map.1 hring with ⟨ring', hring', rfl⟩
    exact hf ring' (h.keyed ring' hring')
  · simp [hdirty] at hclean

theorem WellKept.step {w : MembershipView} {op : ViewOp} (h : v.WellKept) (hstep : ViewStep v op w) :
    w.WellKept := by
  cases hstep with
  | added endpoint =>
      exact h.update (f := fun ring => (ring.insert endpoint).1) rfl (fun _ hring => hring.insert) rfl
  | deleted endpoint =>
      exact h.update (f := fun ring => (ring.remove endpoint).1) rfl (fun _ hring => hring.remove) rfl
  | cached => exact ⟨h.keyed, h.fresh⟩
  | refreshed => exact ⟨h.keyed, fun _ => rfl⟩
  | unchanged => exact h

/-- The id returned is the one of what the view contains. -/
theorem WellKept.currentConfigurationId_eq (h : v.WellKept) :
    v.currentConfigurationId.2 = configurationIdFor v.currentIdentifiers v.ringZero.ordered :=
  currentConfigurationId_eq_of_clean h.fresh

theorem WellKept.of_new {k : UInt8} (h : new k = .ok v) : v.WellKept ∧ v.configurationDirty = true := by
  unfold new at h
  split at h
  · cases h
    refine ⟨⟨?_, fun hclean => by cases hclean⟩, rfl⟩
    intro ring hring
    rcases List.mem_map.1 hring with ⟨i, _, rfl⟩
    intro p hp
    cases hp
  · cases h

theorem keyed_foldl_addEndpoint (endpoints : List Endpoint) :
    ∀ v : MembershipView, (∀ ring ∈ v.rings, ring.Keyed) →
      ∀ ring ∈ (endpoints.foldl MembershipView.addEndpoint v).rings, ring.Keyed := by
  induction endpoints with
  | nil => exact fun v hv => hv
  | cons e endpoints ih =>
      intro v hv
      refine ih (v.addEndpoint e) ?_
      intro ring hring
      rcases List.mem_map.1 hring with ⟨ring', hring', rfl⟩
      exact (hv ring' hring').insert

theorem WellKept.of_bootstrap {k : UInt8} {ids : List NodeId} {endpoints : List Endpoint}
    (h : bootstrap k ids endpoints = .ok v) : v.WellKept := by
  rcases bootstrap_loops h with ⟨v₀, hnew, rfl⟩
  refine ⟨?_, fun hclean => by cases hclean⟩
  refine keyed_foldl_addEndpoint endpoints _ ?_
  rw [(MembershipView.foldl_addIdentifier ids v₀).2.1]
  exact (WellKept.of_new hnew).1.keyed

theorem WellKept.reaches (h : anyViewSystem.Reachable v) : v.WellKept := by
  refine h.invariant ?_ ?_
  · rintro v (⟨k, hnew⟩ | ⟨k, ids, endpoints, hboot⟩)
    · exact (WellKept.of_new hnew).1
    · exact WellKept.of_bootstrap hboot
  · intro v op v' _ hv _ hstep
    cases hstep
    exact hv.step (v.apply_step op)

end MembershipView

end Rapid
