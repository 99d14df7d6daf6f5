import Rapid.View.ViewInvariant
import Rapid.Xxh64Reference

/-!
# Topology — who monitors whom

On every ring the observers form one cycle through all members, and the subjects run through it
backwards. The source computes the two directions by separate range queries, each with its own
wrap-around; here both are the neighbours of the ordered map below the ring.
-/

namespace Rapid

open Foundations

section Topology

variable [Xxh64]

/-! ## Neighbours on one ring -/

namespace Ring

variable {ring : Ring} {nodes : Finset Endpoint} {s o : Endpoint}

/-- `ring.higher(node).or_else(|| ring.first())`. -/
def successor (ring : Ring) (node : Endpoint) : Option Endpoint :=
  (ring.higher node).or ring.first

/-- `ring.lower(node).or_else(|| ring.last())`. -/
def predecessor (ring : Ring) (node : Endpoint) : Option Endpoint :=
  (ring.lower node).or ring.last

theorem successor_eq : ring.successor s = (ring.byHash.nextEntry (ring.key s)).map Prod.snd :=
  Option.map_or.symm

theorem predecessor_eq : ring.predecessor s = (ring.byHash.prevEntry (ring.key s)).map Prod.snd :=
  Option.map_or.symm

theorem Holds.entry_mem (h : ring.Holds nodes) (hs : s ∈ nodes) :
    (ring.key s, s) ∈ ring.byHash.entries :=
  (h _).2 ⟨hs, rfl⟩

/-- The entry of a neighbour is the neighbour under its own key. -/
theorem Holds.map_snd_eq_some (h : ring.Holds nodes) {entry : Option (Int64 × Endpoint)}
    (hentry : ∀ p, entry = some p → p ∈ ring.byHash.entries) :
    entry.map Prod.snd = some o ↔ entry = some (ring.key o, o) := by
  constructor
  · intro hmap
    rcases Option.map_eq_some_iff.1 hmap with ⟨p, hp, rfl⟩
    have hkey : p.1 = ring.key p.2 := ((h p).1 (hentry p hp)).2
    rw [hp, ← hkey]
  · rintro rfl
    rfl

theorem Holds.successor_eq_some (h : ring.Holds nodes) (hs : s ∈ nodes) :
    ring.successor s = some o ↔ ring.byHash.nextEntry (ring.key s) = some (ring.key o, o) := by
  rw [successor_eq]
  apply h.map_snd_eq_some
  intro p hp
  rcases OrderedMap.nextEntry_mem (h.entry_mem hs) with ⟨q, hq, hnext⟩
  have hpq : q = p := Option.some.inj (hnext.symm.trans hp)
  exact hpq ▸ hq

theorem Holds.predecessor_eq_some (h : ring.Holds nodes) (ho : o ∈ nodes) :
    ring.predecessor o = some s ↔ ring.byHash.prevEntry (ring.key o) = some (ring.key s, s) := by
  rw [predecessor_eq]
  apply h.map_snd_eq_some
  intro p hp
  rcases OrderedMap.prevEntry_exists (h.entry_mem ho) (ring.key o) with ⟨q, hq, hprev⟩
  have hpq : q = p := Option.some.inj (hprev.symm.trans hp)
  exact hpq ▸ hq

/-- The two range queries are inverse to each other on the members. -/
theorem Holds.successor_iff_predecessor (h : ring.Holds nodes) (hs : s ∈ nodes) (ho : o ∈ nodes) :
    ring.successor s = some o ↔ ring.predecessor o = some s := by
  have hinverse := OrderedMap.nextEntry_eq_some_iff (h.entry_mem hs) (h.entry_mem ho)
  rw [h.successor_eq_some hs, h.predecessor_eq_some ho]
  exact hinverse

theorem Holds.exists_successor (h : ring.Holds nodes) (hs : s ∈ nodes) :
    ∃ o ∈ nodes, ring.successor s = some o := by
  rcases OrderedMap.nextEntry_mem (h.entry_mem hs) with ⟨q, hq, hnext⟩
  refine ⟨q.2, ((h q).1 hq).1, ?_⟩
  rw [successor_eq, hnext]
  rfl

/-- A nonempty ring has a node before every endpoint. -/
theorem Holds.exists_predecessor (h : ring.Holds nodes) (hs : s ∈ nodes) (e : Endpoint) :
    ∃ y ∈ nodes, ring.predecessor e = some y := by
  rcases OrderedMap.prevEntry_exists (h.entry_mem hs) (ring.key e) with ⟨q, hq, hprev⟩
  refine ⟨q.2, ((h q).1 hq).1, ?_⟩
  rw [predecessor_eq, hprev]
  rfl

/-- The node found before an endpoint is on the ring. -/
theorem Holds.predecessor_mem (h : ring.Holds nodes) {e : Endpoint}
    (hpred : ring.predecessor e = some o) : o ∈ nodes := by
  rw [predecessor_eq] at hpred
  rcases Option.map_eq_some_iff.1 hpred with ⟨p, hp, rfl⟩
  exact ((h p).1 (OrderedMap.prevEntry_mem hp)).1

theorem Holds.successor_ne_self (h : ring.Holds nodes) (htwo : 2 ≤ nodes.card) (hs : s ∈ nodes) :
    ring.successor s ≠ some s := by
  intro hself
  have hlength : 2 ≤ ring.byHash.entries.length := by
    rw [← h.len] at htwo
    exact htwo
  exact OrderedMap.nextEntry_ne_self (h.entry_mem hs) hlength ((h.successor_eq_some hs).1 hself)

/-- The successors form a single cycle: from any member, every member is reached. -/
theorem Holds.iterate_successor (h : ring.Holds nodes) {f : Endpoint → Endpoint}
    (hf : ∀ s ∈ nodes, ring.successor s = some (f s)) (hs : s ∈ nodes) (ho : o ∈ nodes) :
    ∃ n, f^[n] s = o := by
  have hnext : ∀ p ∈ ring.byHash.entries,
      (ring.byHash.nextEntry p.1).map Prod.snd = some (f p.2) := by
    intro p hp
    rcases (h p).1 hp with ⟨hmem, hkey⟩
    rw [hkey, ← successor_eq]
    exact hf p.2 hmem
  exact OrderedMap.iterate_nextEntry hnext (h.entry_mem hs) (h.entry_mem ho)

end Ring

/-! ## All rings of a view -/

omit [Xxh64] in
theorem filterMap_eq_map {α β : Type} {f : α → Option β} {g : α → β} {l : List α}
    (h : ∀ x ∈ l, f x = some (g x)) : l.filterMap f = l.map g := by
  calc
    l.filterMap f = l.filterMap fun x => some (g x) := List.filterMap_congr h
    _ = l.map g := congrFun List.filterMap_eq_map' l

namespace MembershipView

variable {v : MembershipView} {s o : Endpoint}

/-- The observer of a member on ring `i`, as listed by `compute_observers_of`. -/
def observerOn (v : MembershipView) (i : Nat) (s : Endpoint) : Endpoint :=
  (v.computeObserversOf s)[i]?.getD s

theorem Valid.membershipSize_eq (h : v.Valid) : v.membershipSize = v.allNodes.card :=
  (h.holds _ ringZero_mem).len

/-- With two members or more, every ring contributes one observer. -/
theorem Valid.computeObserversOf_getElem? (h : v.Valid) (htwo : 2 ≤ v.membershipSize)
    (hs : s ∈ v.allNodes) :
    (v.computeObserversOf s).length = v.k.toNat ∧
      ∀ i (hi : i < v.rings.length), (v.computeObserversOf s)[i]? = v.rings[i].successor s := by
  have hbranch : v.computeObserversOf s = v.rings.filterMap fun ring => ring.successor s :=
    if_neg (Nat.not_le.2 htwo)
  have hsome : ∀ ring ∈ v.rings, ring.successor s = some ((ring.successor s).getD s) := by
    intro ring hring
    rcases (h.holds ring hring).exists_successor hs with ⟨o, _, hsucc⟩
    rw [hsucc]
    rfl
  rw [hbranch, filterMap_eq_map hsome]
  refine ⟨by rw [List.length_map, v.rings_length], ?_⟩
  intro i hi
  rw [List.getElem?_map, List.getElem?_eq_getElem hi]
  exact (hsome _ (List.getElem_mem hi)).symm

/-- Nobody observes itself. -/
theorem Valid.notMem_computeObserversOf (h : v.Valid) (hs : s ∈ v.allNodes) :
    s ∉ v.computeObserversOf s := by
  intro hself
  unfold computeObserversOf at hself
  split at hself
  · cases hself
  · rename_i htwo
    rcases List.mem_filterMap.1 hself with ⟨ring, hring, hsuccessor⟩
    have hcard : 2 ≤ v.allNodes.card := by
      rw [← h.membershipSize_eq]
      exact Nat.not_le.1 htwo
    exact (h.holds ring hring).successor_ne_self hcard hs hsuccessor

theorem Valid.getSubjectsOf_getElem? (h : v.Valid) (htwo : 2 ≤ v.membershipSize)
    (ho : o ∈ v.allNodes) :
    ∃ subjects, v.getSubjectsOf o = .ok subjects ∧ subjects.length = v.k.toNat ∧
      ∀ i (hi : i < v.rings.length), subjects[i]? = v.rings[i].predecessor o := by
  have hpresent : v.isHostPresent o = true := decide_eq_true ho
  have hlarge : ¬ v.ringZero.len ≤ 1 := Nat.not_le.2 htwo
  have hbranch : v.getSubjectsOf o = .ok (v.predecessorsOf o) := by
    rw [getSubjectsOf, if_pos hpresent, if_neg hlarge]
  have hsome : ∀ ring ∈ v.rings, ring.predecessor o = some ((ring.predecessor o).getD o) := by
    intro ring hring
    rcases (h.holds ring hring).exists_predecessor ho o with ⟨s, _, hpred⟩
    rw [hpred]
    rfl
  have hmap : v.predecessorsOf o = v.rings.map fun ring => (ring.predecessor o).getD o :=
    filterMap_eq_map hsome
  refine ⟨_, hbranch, by rw [hmap, List.length_map, v.rings_length], ?_⟩
  intro i hi
  rw [hmap, List.getElem?_map, List.getElem?_eq_getElem hi]
  exact (hsome _ (List.getElem_mem hi)).symm

/-- In a nonempty view every ring contributes one expected observer of a joiner. -/
theorem Valid.getExpectedObserversOf_getElem? (h : v.Valid) (hs : s ∈ v.allNodes) (e : Endpoint) :
    (v.getExpectedObserversOf e).length = v.k.toNat ∧
      ∀ i (hi : i < v.rings.length), (v.getExpectedObserversOf e)[i]? = v.rings[i].predecessor e := by
  have hlarge : ¬ v.ringZero.len = 0 := by
    rw [(h.holds _ ringZero_mem).len]
    exact (Finset.card_pos.2 ⟨s, hs⟩).ne'
  have hbranch : v.getExpectedObserversOf e = v.predecessorsOf e := if_neg hlarge
  have hsome : ∀ ring ∈ v.rings, ring.predecessor e = some ((ring.predecessor e).getD e) := by
    intro ring hring
    rcases (h.holds ring hring).exists_predecessor hs e with ⟨y, _, hpred⟩
    rw [hpred]
    rfl
  have hmap : v.predecessorsOf e = v.rings.map fun ring => (ring.predecessor e).getD e :=
    filterMap_eq_map hsome
  rw [hbranch, hmap]
  refine ⟨by rw [List.length_map, v.rings_length], ?_⟩
  intro i hi
  rw [List.getElem?_map, List.getElem?_eq_getElem hi]
  exact (hsome _ (List.getElem_mem hi)).symm

theorem Valid.getExpectedObserversOf_subset (h : v.Valid) (e : Endpoint) :
    ∀ o ∈ v.getExpectedObserversOf e, o ∈ v.allNodes := by
  intro o ho
  unfold getExpectedObserversOf at ho
  split at ho
  · cases ho
  · rcases List.mem_filterMap.1 ho with ⟨ring, hring, hpred⟩
    exact (h.holds ring hring).predecessor_mem hpred

/-- `o` observes `s` on ring `i` exactly when `s` is the subject of `o` there. -/
theorem Valid.observer_iff_subject (h : v.Valid) (htwo : 2 ≤ v.membershipSize)
    (hs : s ∈ v.allNodes) (ho : o ∈ v.allNodes) {i : Nat} (hi : i < v.k.toNat) :
    (v.computeObserversOf s)[i]? = some o ↔
      ∃ subjects, v.getSubjectsOf o = .ok subjects ∧ subjects[i]? = some s := by
  have hi' : i < v.rings.length := by
    rw [v.rings_length]
    exact hi
  rcases h.getSubjectsOf_getElem? htwo ho with ⟨subjects, hok, _, hget⟩
  rw [(h.computeObserversOf_getElem? htwo hs).2 i hi',
    (h.holds _ (List.getElem_mem hi')).successor_iff_predecessor hs ho, ← hget i hi']
  constructor
  · intro hsubject
    exact ⟨subjects, hok, hsubject⟩
  · rintro ⟨subjects', hok', hsubject⟩
    rw [hok] at hok'
    cases hok'
    exact hsubject

theorem Valid.successor_eq_observerOn (h : v.Valid) (htwo : 2 ≤ v.membershipSize)
    (hs : s ∈ v.allNodes) {i : Nat} (hi : i < v.rings.length) :
    v.rings[i].successor s = some (v.observerOn i s) := by
  rcases (h.holds _ (List.getElem_mem hi)).exists_successor hs with ⟨o, _, hsucc⟩
  rw [observerOn, (h.computeObserversOf_getElem? htwo hs).2 i hi, hsucc]
  rfl

/-- On each ring, taking the observer is a permutation of the members with a single cycle. -/
theorem Valid.single_cycle (h : v.Valid) (htwo : 2 ≤ v.membershipSize) {i : Nat}
    (hi : i < v.k.toNat) :
    Set.BijOn (v.observerOn i) v.allNodes v.allNodes ∧
      ∀ a ∈ v.allNodes, ∀ b ∈ v.allNodes, ∃ n, (v.observerOn i)^[n] a = b := by
  have hi' : i < v.rings.length := by
    rw [v.rings_length]
    exact hi
  have hring := h.holds _ (List.getElem_mem hi')
  have hsucc : ∀ s ∈ v.allNodes, v.rings[i].successor s = some (v.observerOn i s) :=
    fun s hs => h.successor_eq_observerOn htwo hs hi'
  have hmaps : ∀ s ∈ v.allNodes, v.observerOn i s ∈ v.allNodes := by
    intro s hs
    rcases hring.exists_successor hs with ⟨o, ho, heq⟩
    have hso : v.observerOn i s = o := Option.some.inj ((hsucc s hs).symm.trans heq)
    exact hso ▸ ho
  refine ⟨⟨hmaps, ?_, ?_⟩, fun a ha b hb => hring.iterate_successor hsucc ha hb⟩
  · -- Equal observers have one predecessor.
    intro a ha b hb hab
    have hpa := (hring.successor_iff_predecessor ha (hmaps a ha)).1 (hsucc a ha)
    have hpb := (hring.successor_iff_predecessor hb (hmaps b hb)).1 (hsucc b hb)
    rw [← show v.observerOn i a = v.observerOn i b from hab] at hpb
    exact Option.some.inj (hpa.symm.trans hpb)
  · intro o ho
    rcases hring.exists_predecessor ho o with ⟨s, hs, hpred⟩
    have heq := (hring.successor_iff_predecessor hs ho).2 hpred
    exact ⟨s, hs, Option.some.inj ((hsucc s hs).symm.trans heq)⟩

/-- The ring numbers of `(o, s)` are the rings on which `o` observes `s`. -/
theorem Valid.getRingNumbers_spec (h : v.Valid) (htwo : 2 ≤ v.membershipSize)
    (hs : s ∈ v.allNodes) (ho : o ∈ v.allNodes) :
    ∃ numbers, v.getRingNumbers o s = .ok numbers ∧ numbers.Nodup ∧
      ∀ i : UInt8, i ∈ numbers ↔ (v.computeObserversOf s)[i.toNat]? = some o := by
  rcases h.getSubjectsOf_getElem? htwo ho with ⟨subjects, hok, hlength, _⟩
  have hbound : subjects.length < 2 ^ 8 := by
    rw [hlength]
    exact v.k.toNat_lt
  have hne : subjects.isEmpty = false := by
    rw [List.isEmpty_eq_false_iff, ← List.length_pos_iff, hlength]
    exact v.k_pos
  have hbranch : v.getRingNumbers o s =
      .ok ((subjects.zipIdx.filter fun p => p.1 = s).map fun p => p.2.toUInt8) := by
    simp [getRingNumbers, hok, hne, bind, Except.bind, pure, Except.pure]
  have hmem : ∀ j, (s, j) ∈ subjects.zipIdx ↔ subjects[j]? = some s := by
    intro j
    rw [List.mk_mem_zipIdx_iff_getElem?]
  -- An index below 256 survives the cast to `u8`.
  have hcast : ∀ p ∈ subjects.zipIdx, p.2.toUInt8.toNat = p.2 := by
    intro p hp
    have hlt := List.snd_lt_of_mem_zipIdx hp
    exact UInt8.toNat_ofNat_of_lt' (show p.2 < 2 ^ 8 by omega)
  have hnodup : subjects.zipIdx.Nodup := by
    refine List.Nodup.of_map Prod.snd ?_
    rw [List.zipIdx_map_snd]
    exact List.nodup_range'
  refine ⟨_, hbranch, ?_, ?_⟩
  · refine List.Nodup.map_on ?_ (hnodup.filter _)
    intro p hp q hq heq
    rcases List.mem_filter.1 hp with ⟨hp, hps⟩
    rcases List.mem_filter.1 hq with ⟨hq, hqs⟩
    refine Prod.ext ((of_decide_eq_true hps).trans (of_decide_eq_true hqs).symm) ?_
    rw [← hcast p hp, ← hcast q hq, heq]
  · intro i
    have hlist : i ∈ (subjects.zipIdx.filter fun p => p.1 = s).map (fun p => p.2.toUInt8) ↔
        subjects[i.toNat]? = some s := by
      rw [List.mem_map, ← hmem]
      constructor
      · rintro ⟨p, hp, rfl⟩
        rcases List.mem_filter.1 hp with ⟨hp, hps⟩
        rw [hcast p hp]
        have hpair : p = (s, p.2) := Prod.ext (of_decide_eq_true hps) rfl
        exact hpair ▸ hp
      · intro hp
        exact ⟨(s, i.toNat), List.mem_filter.2 ⟨hp, by simp⟩, by simp⟩
    rw [hlist]
    by_cases hi : i.toNat < v.k.toNat
    · rw [h.observer_iff_subject htwo hs ho hi]
      constructor
      · intro hsubject
        exact ⟨subjects, hok, hsubject⟩
      · rintro ⟨subjects', hok', hsubject⟩
        rw [hok] at hok'
        cases hok'
        exact hsubject
    · -- Both lists end at `K`.
      have hout := Nat.le_of_not_lt hi
      rw [List.getElem?_eq_none (by rw [hlength]; exact hout),
        List.getElem?_eq_none (by rw [(h.computeObserversOf_getElem? htwo hs).1]; exact hout)]
      simp

end MembershipView

/-- The monitoring relation of every reachable view with at least two members. -/
theorem monitoring_topology {v : MembershipView} (hv : viewSystem.Reaches CollidesNot v)
    (htwo : 2 ≤ v.membershipSize) :
    (∀ s ∈ v.allNodes, (v.computeObserversOf s).length = v.k.toNat ∧ s ∉ v.computeObserversOf s) ∧
      (∀ i < v.k.toNat, Set.BijOn (v.observerOn i) v.allNodes v.allNodes ∧
        (∀ a ∈ v.allNodes, ∀ b ∈ v.allNodes, ∃ n, (v.observerOn i)^[n] a = b) ∧
        ∀ s ∈ v.allNodes, ∀ o ∈ v.allNodes, (v.computeObserversOf s)[i]? = some o ↔
          ∃ subjects, v.getSubjectsOf o = .ok subjects ∧ subjects[i]? = some s) ∧
      (∀ s ∈ v.allNodes, ∀ o ∈ v.allNodes, ∃ numbers, v.getRingNumbers o s = .ok numbers ∧
        numbers.Nodup ∧ ∀ i : UInt8, i ∈ numbers ↔ (v.computeObserversOf s)[i.toNat]? = some o) ∧
      ∀ s ∈ v.allNodes, ∀ i : UInt8, i < v.k →
        ∃! o, o ∈ v.allNodes ∧ ∃ numbers, v.getRingNumbers o s = .ok numbers ∧ i ∈ numbers := by
  have h : v.Valid := .reaches (fun _ _ h => h) hv
  refine ⟨?_, ?_, fun s hs o ho => h.getRingNumbers_spec htwo hs ho, ?_⟩
  · intro s hs
    exact ⟨(h.computeObserversOf_getElem? htwo hs).1, h.notMem_computeObserversOf hs⟩
  · intro i hi
    rcases h.single_cycle htwo hi with ⟨hbij, hcycle⟩
    exact ⟨hbij, hcycle, fun s hs o ho => h.observer_iff_subject htwo hs ho hi⟩
  · intro s hs i hi
    have hi' : i.toNat < v.rings.length := by
      rw [v.rings_length]
      exact UInt8.lt_iff_toNat_lt.1 hi
    -- The observer on ring `i` is the successor there, and no other node has this number.
    rcases (h.holds _ (List.getElem_mem hi')).exists_successor hs with ⟨o, ho, hsucc⟩
    have hget := (h.computeObserversOf_getElem? htwo hs).2 i.toNat hi'
    rw [hsucc] at hget
    refine ⟨o, ⟨ho, ?_⟩, ?_⟩
    · rcases h.getRingNumbers_spec htwo hs ho with ⟨numbers, hok, _, hmem⟩
      exact ⟨numbers, hok, (hmem i).2 hget⟩
    · rintro o' ⟨ho', numbers, hok, hnumber⟩
      rcases h.getRingNumbers_spec htwo hs ho' with ⟨numbers', hok', _, hmem⟩
      rw [hok] at hok'
      cases hok'
      exact Option.some.inj (((hmem i).1 hnumber).symm.trans hget)

end Topology

/-! ### Three members on three rings -/

section ThreeMembers

attribute [local instance] xxh64Reference

theorem three_members_topology :
    ∃ v, MembershipView.bootstrap 3 [] [hostA, hostB, hostC] = .ok v ∧ v.membershipSize = 3 ∧
      ∀ i < 3, ∀ a ∈ v.allNodes, ∀ b ∈ v.allNodes, ∃ n, (v.observerOn i)^[n] a = b := by
  have hfacts : ((MembershipView.bootstrap 3 [] [hostA, hostB, hostC]).toOption.map fun v =>
      (v.membershipSize, v.k)) = some (3, 3) := by
    decide +kernel
  rcases Option.map_eq_some_iff.1 hfacts with ⟨v, hv, heq⟩
  rcases Prod.mk.inj heq with ⟨hsize, hk⟩
  have hfree : CollisionFree 3 [hostA, hostB, hostC].toFinset := by
    decide +kernel
  have hinit : viewSystem.init v := Or.inr ⟨3, _, _, hfree, eq_ok_of_toOption hv⟩
  have htopology := monitoring_topology (.start hinit) (by rw [hsize]; decide)
  refine ⟨v, eq_ok_of_toOption hv, hsize, ?_⟩
  intro i hi
  exact (htopology.2.1 i (by rw [hk]; exact hi)).2.1

end ThreeMembers

end Rapid
