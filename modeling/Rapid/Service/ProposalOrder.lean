import Rapid.Service.ServiceSystem
import Rapid.View.HistoryIndependence
import Rapid.Foundations.KeyOrder

/-!
# ProposalOrder — the order of a proposal and the order of ring 0

A proposal is the sorted list of the endpoints that the cut detector emits. It is sorted by the
address hash as an unsigned number, ring 0 by the same hash as a signed one: the two orders agree
as long as no two members of the proposal have their hashes on different sides of `2 ^ 63`.
-/

namespace Rapid

open Foundations

section Order

variable [Xxh64]

/-! ## Ring 0 -/

/-- Ring 0 holds exactly the members, under the keys of seed 0. -/
structure MembershipView.RingZeroExact (v : MembershipView) : Prop where
  seed : v.ringZero.seed = 0
  holds : v.ringZero.Holds v.allNodes

theorem Ring.Holds.keySorted {ring : Ring} {nodes : Finset Endpoint} (h : ring.Holds nodes) :
    KeySorted ring.key ring.ordered := by
  have hentries : (ring.byHash.entries.map Prod.snd).Pairwise
      fun a b => ring.key a < ring.key b := by
    rw [List.pairwise_map]
    refine ring.byHash.sorted.imp_of_mem ?_
    intro p q hp hq hlt
    rwa [((h p).1 hp).2, ((h q).1 hq).2] at hlt
  exact hentries

namespace MembershipView

variable {v : MembershipView} {e : Endpoint}

theorem Valid.ringZeroExact (h : v.Valid) : v.RingZeroExact := by
  have hpos : 0 < v.rings.length := by
    rw [v.rings_length]
    exact v.k_pos
  refine ⟨?_, h.holds _ ringZero_mem⟩
  have hseed := h.seeds 0 hpos
  rwa [ringZero, List.head_eq_getElem]

theorem RingZeroExact.key_eq (h : v.RingZeroExact) :
    v.ringZero.key e = (addressHashSeedZero e).toInt64 := by
  rw [Ring.key, h.seed, addressHashSeedZero]

/-- Among the members, the order of ring 0 is the signed order of the hashes. -/
theorem RingZeroExact.precedes_iff (h : v.RingZeroExact) {a b : Endpoint} (ha : a ∈ v.allNodes)
    (hb : b ∈ v.allNodes) :
    Precedes v.ringZero.ordered a b ↔
      (addressHashSeedZero a).toInt64 < (addressHashSeedZero b).toInt64 := by
  rw [h.holds.keySorted.precedes_iff, h.holds.mem_ordered, h.holds.mem_ordered, h.key_eq, h.key_eq]
  simp [ha, hb]

end MembershipView

/-! ## The proposal -/

namespace ServiceState

variable (state : ServiceState)

/-- The endpoints that the cut detector emits while a batch is handled. -/
def emittedEndpoints (env : Environment) (batch : BatchedAlertMessage) : Finset Endpoint :=
  let current := state.configurationId
  let state := current.1
  if state.lifecycle = .announcedProposal then ∅
  else
    let valid := filterAlerts current.2 batch.messages state
    let aggregated := aggregateAlerts env.proposalOrder valid.2 valid.1.cutDetector
    let invalidated :=
      aggregated.1.invalidateFailingEdges env.preProposalOrder env.proposalOrder valid.1.view
    (aggregated.2 ++ invalidated.2.2).toFinset

variable {state} {env : Environment} {batch : BatchedAlertMessage}

/-- The proposal is the set of emitted endpoints, listed in some order and sorted. -/
theorem handleBatchedAlerts_proposal :
    (state.handleBatchedAlerts env batch).2 =
      sortBySeedZero (env.emittedOrder.list (state.emittedEndpoints env batch)) := by
  have hempty : sortBySeedZero (env.emittedOrder.list ∅) = [] := by
    rw [env.emittedOrder.list_eq_nil.2 rfl]
    rfl
  unfold handleBatchedAlerts emittedEndpoints
  dsimp only
  split
  · exact hempty.symm
  · split
    · rename_i hnone
      rw [hnone]
      exact hempty.symm
    · rfl

theorem mem_proposal {e : Endpoint} :
    e ∈ (state.handleBatchedAlerts env batch).2 ↔ e ∈ state.emittedEndpoints env batch := by
  rw [handleBatchedAlerts_proposal, sortBySeedZero, List.mem_insertionSort,
    HashOrder.mem_list_iff]

theorem keySorted_proposal
    (hinj : Set.InjOn addressHashSeedZero (state.emittedEndpoints env batch)) :
    KeySorted (fun e => (addressHashSeedZero e).toNat) (state.handleBatchedAlerts env batch).2 := by
  rw [handleBatchedAlerts_proposal]
  refine keySorted_insertionSort (env.emittedOrder.nodup _) ?_
  intro a ha b hb hab
  have ha' : a ∈ state.emittedEndpoints env batch := env.emittedOrder.mem_list_iff.1 ha
  have hb' : b ∈ state.emittedEndpoints env batch := env.emittedOrder.mem_list_iff.1 hb
  exact hinj ha' hb' (UInt64.toNat_inj.1 hab)

/-- What the peers rely on when they compare proposals element by element. -/
structure CanonicalProposal (state : ServiceState) (env : Environment)
    (batch : BatchedAlertMessage) : Prop where
  nodup : (state.handleBatchedAlerts env batch).2.Nodup
  canonical : ∀ state' env' batch',
    emittedEndpoints state' env' batch' = state.emittedEndpoints env batch →
      (handleBatchedAlerts state' env' batch').2 = (state.handleBatchedAlerts env batch).2
  ringZero : ∀ a ∈ state.view.allNodes, ∀ b ∈ state.view.allNodes,
    Precedes (state.handleBatchedAlerts env batch).2 a b → Precedes state.memberlist a b

omit [Xxh64] in
/-- The hashes of these endpoints have the same top bit. -/
def OneHalf (hash : Endpoint → UInt64) (nodes : Finset Endpoint) : Prop :=
  ∀ a ∈ nodes, ∀ b ∈ nodes, (hash a).toNat < 2 ^ 63 → (hash b).toNat < 2 ^ 63

/-- Every proposal lists the emitted endpoints once, in an order that only depends on their set;
it is the order of ring 0 exactly when the emitted members have hashes with one top bit. -/
theorem proposal_canonical_iff (state : ServiceState) (env : Environment)
    (batch : BatchedAlertMessage) (hring : state.view.RingZeroExact)
    (hinj : Set.InjOn addressHashSeedZero (state.emittedEndpoints env batch)) :
    CanonicalProposal state env batch ↔
      OneHalf addressHashSeedZero (state.emittedEndpoints env batch ∩ state.view.allNodes) := by
  have hsorted := keySorted_proposal hinj
  have hmemberlist : state.memberlist = state.view.ringZero.ordered := by
    rw [memberlist, MembershipView.getRing_zero]
    rfl
  constructor
  · intro hcanonical a ha b hb hlow
    rcases Finset.mem_inter.1 ha with ⟨haemit, hamem⟩
    rcases Finset.mem_inter.1 hb with ⟨hbemit, hbmem⟩
    by_contra hhigh
    -- The endpoint with the high hash comes last in the proposal and first in ring 0.
    rcases toInt64_lt_of_halves hhigh hlow with ⟨hsigned, hunsigned⟩
    have hproposal := hsorted.precedes_iff.2
      ⟨mem_proposal.2 haemit, mem_proposal.2 hbemit, hunsigned⟩
    have hmembers := hcanonical.ringZero a hamem b hbmem hproposal
    rw [hmemberlist, hring.precedes_iff hamem hbmem] at hmembers
    exact absurd hmembers (lt_asymm hsigned)
  · intro hhalf
    refine ⟨hsorted.nodup, ?_, ?_⟩
    · intro state' env' batch' hsame
      refine (keySorted_proposal (hsame ▸ hinj)).eq_of_mem_iff hsorted ?_
      intro e
      rw [mem_proposal, mem_proposal, hsame]
    · intro a hamem b hbmem hproposal
      rcases hsorted.precedes_iff.1 hproposal with ⟨ha, hb, hlt⟩
      have ha' := Finset.mem_inter.2 ⟨mem_proposal.1 ha, hamem⟩
      have hb' := Finset.mem_inter.2 ⟨mem_proposal.1 hb, hbmem⟩
      rw [hmemberlist, hring.precedes_iff hamem hbmem]
      exact (toInt64_lt_iff ⟨hhalf a ha' b hb', hhalf b hb' a ha'⟩).2 hlt

end ServiceState

end Order

/-! ### Two batches about the members of one cluster

The hash of `hostB` has its top bit set, those of `hostA` and `hostC` do not. -/

section Samples

attribute [local instance] xxh64Reference

namespace ServiceState

def removalBatch (state : ServiceState) (subjects : List Endpoint) : BatchedAlertMessage where
  sender := some hostC
  messages := subjects.map fun e => state.sampleAlert .down [0] e none

theorem sampleCluster_valid {h l : UInt8} {identifiers : List NodeId}
    {endpoints : List Endpoint} {state : ServiceState}
    (hstate : sampleCluster h l identifiers endpoints = some state)
    (hfree : CollisionFree 3 endpoints.toFinset) : state.view.Valid := by
  rcases sampleCluster_boots hstate with ⟨effects, view, detector, _, hbooted, hview, _⟩
  exact hbooted.view.valid (MembershipView.Valid.of_bootstrap hview hfree).1

/-- The three hosts, one report is enough. -/
def threeHosts : Option ServiceState :=
  sampleCluster 1 1 [] [hostA, hostB, hostC]

theorem threeHosts_free : CollisionFree 3 [hostA, hostB, hostC].toFinset := by
  decide +kernel

theorem threeHosts_facts :
    (threeHosts.map fun state => (state.memberlist, state.view.allNodes,
      (state.handleBatchedAlerts sampleEnvironment (removalBatch state [hostB, hostA])).2,
      (state.handleBatchedAlerts sampleEnvironment (removalBatch state [hostC, hostA])).2)) =
      some ([hostB, hostC, hostA], {hostA, hostB, hostC}, [hostA, hostB], [hostC, hostA]) := by
  decide +kernel

theorem hosts_injOn : Set.InjOn addressHashSeedZero ([hostA, hostB, hostC].toFinset : Finset _) := by
  have hdistinct : ∀ a ∈ [hostA, hostB, hostC], ∀ b ∈ [hostA, hostB, hostC],
      addressHashSeedZero a = addressHashSeedZero b → a = b := by
    decide +kernel
  intro a ha b hb
  exact hdistinct a (List.mem_toFinset.1 ha) b (List.mem_toFinset.1 hb)

/-- Two members proposed in one order stand in the other order on ring 0. -/
theorem threeHosts_misordered :
    ∃ state, threeHosts = some state ∧ state.view.RingZeroExact ∧
      Set.InjOn addressHashSeedZero
        (state.emittedEndpoints sampleEnvironment (removalBatch state [hostB, hostA])) ∧
      (state.handleBatchedAlerts sampleEnvironment (removalBatch state [hostB, hostA])).2 =
        [hostA, hostB] ∧
      state.memberlist = [hostB, hostC, hostA] ∧
      ¬ CanonicalProposal state sampleEnvironment (removalBatch state [hostB, hostA]) := by
  rcases Option.map_eq_some_iff.1 threeHosts_facts with ⟨state, hstate, hfacts⟩
  simp only [Prod.mk.injEq] at hfacts
  rcases hfacts with ⟨hmembers, hnodes, hproposal, _⟩
  refine ⟨state, hstate, (sampleCluster_valid hstate threeHosts_free).ringZeroExact, ?_, hproposal,
    hmembers, ?_⟩
  · refine hosts_injOn.mono ?_
    intro e he
    have hmem : e ∈ [hostA, hostB] := hproposal ▸ mem_proposal.2 he
    have hsub : [hostA, hostB] ⊆ [hostA, hostB, hostC] := by
      decide +kernel
    exact List.mem_toFinset.2 (hsub hmem)
  · intro hcanonical
    -- Ring 0 lists `hostB` before `hostA`, the proposal the other way round.
    have hringZero := hcanonical.ringZero hostA (by rw [hnodes]; decide +kernel) hostB
      (by rw [hnodes]; decide +kernel) (by rw [hproposal]; decide +kernel)
    rw [hmembers] at hringZero
    revert hringZero
    decide +kernel

/-- Two members with hashes of one half are proposed in the order of ring 0. -/
theorem threeHosts_ordered :
    ∃ state, threeHosts = some state ∧
      (state.handleBatchedAlerts sampleEnvironment (removalBatch state [hostC, hostA])).2 =
        [hostC, hostA] ∧
      CanonicalProposal state sampleEnvironment (removalBatch state [hostC, hostA]) := by
  rcases Option.map_eq_some_iff.1 threeHosts_facts with ⟨state, hstate, hfacts⟩
  simp only [Prod.mk.injEq] at hfacts
  rcases hfacts with ⟨_, _, _, hproposal⟩
  have hemitted : ∀ e ∈ state.emittedEndpoints sampleEnvironment (removalBatch state [hostC, hostA]),
      e ∈ [hostC, hostA] := fun e he => hproposal ▸ mem_proposal.2 he
  refine ⟨state, hstate, hproposal, ?_⟩
  refine (proposal_canonical_iff state sampleEnvironment (removalBatch state [hostC, hostA])
    (sampleCluster_valid hstate threeHosts_free).ringZeroExact ?_).2 ?_
  · refine hosts_injOn.mono ?_
    intro e he
    have hsub : [hostC, hostA] ⊆ [hostA, hostB, hostC] := by
      decide +kernel
    exact List.mem_toFinset.2 (hsub (hemitted e he))
  · have hlow : ∀ e ∈ [hostC, hostA], (addressHashSeedZero e).toNat < 2 ^ 63 := by
      decide +kernel
    intro a _ b hb _
    exact hlow b (hemitted b (Finset.mem_inter.1 hb).1)

end ServiceState

end Samples

end Rapid
