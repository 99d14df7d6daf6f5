import Rapid.Service.Admission
import Rapid.Service.KeptView

/-!
# ViewDelta — the published delta is exact

A subscriber that knows the members and their metadata, and folds the delta of a `VIEW_CHANGE`
event over them, knows the members and the metadata after the change.
-/

namespace Rapid

open Foundations

/-! ## What a subscriber knows -/

/-- The members and the metadata of everybody. -/
structure Knowledge where
  members : Finset Endpoint
  metadata : Endpoint → Metadata

/-- `UP` adds the endpoint with its metadata, `DOWN` removes both. -/
def Knowledge.apply (known : Knowledge) (change : NodeStatusChange) : Knowledge :=
  match change.status with
  | .up =>
      { members := insert change.endpoint known.members
        metadata := Function.update known.metadata change.endpoint change.metadata }
  | .down =>
      { members := known.members.erase change.endpoint
        metadata := Function.update known.metadata change.endpoint default }

def Knowledge.fold (known : Knowledge) (delta : List NodeStatusChange) : Knowledge :=
  delta.foldl Knowledge.apply known

/-! ## The metadata manager -/

namespace MetadataManager

variable {manager : MetadataManager} {e : Endpoint} {metadata : Metadata}

theorem get_eq_default (h : e ∉ manager.roleMap) : manager.get e = default := by
  have hlookup : manager.roleMap.lookup e = none := Finmap.lookup_eq_none.2 h
  rw [get, hlookup]
  rfl

theorem get_remove : (manager.remove e).get = Function.update manager.get e default := by
  funext x
  by_cases hx : x = e
  · subst hx
    simp [get, remove]
  · simp [get, remove, Finmap.lookup_erase_ne hx, hx]

theorem mem_remove {x : Endpoint} :
    x ∈ (manager.remove e).roleMap ↔ x ≠ e ∧ x ∈ manager.roleMap :=
  Finmap.mem_erase

theorem get_add (hnew : e ∉ manager.roleMap) :
    (manager.add [(e, metadata)]).get = Function.update manager.get e metadata := by
  funext x
  by_cases hx : x = e
  · subst hx
    simp [get, add, addEntry, hnew]
  · simp [get, add, addEntry, hnew, hx]

theorem mem_add {x : Endpoint} :
    x ∈ (manager.add [(e, metadata)]).roleMap ↔ x = e ∨ x ∈ manager.roleMap := by
  by_cases he : e ∈ manager.roleMap
  · simp only [add, List.foldl_cons, List.foldl_nil, addEntry, he, if_true]
    constructor
    · exact .inr
    · rintro (rfl | hx)
      · exact he
      · exact hx
  · simp [add, addEntry, he]

end MetadataManager

/-! ## One endpoint of the proposal -/

section Delta

variable [Xxh64]

namespace ServiceState

/-- What the actor could tell about its members. -/
def knowledge (s : ServiceState) : Knowledge where
  members := s.view.allNodes
  metadata := s.metadata.get

/-- Metadata is kept for members only. -/
def MetadataOfMembers (s : ServiceState) : Prop :=
  ∀ e ∈ s.metadata.roleMap, e ∈ s.view.allNodes

end ServiceState

variable {s s' : ServiceState} {node : Endpoint} {delta : List NodeStatusChange}

/-- Ring 0 holds exactly the members, and metadata is kept for members only. -/
structure ServiceState.Consistent (s : ServiceState) : Prop where
  ring : s.view.ringZero.Holds s.view.allNodes
  metadata : s.MetadataOfMembers

/-- One endpoint: the reported change is what happened. -/
theorem NodeStep.consistent (h : NodeStep node s s' delta) (hs : s.Consistent) :
    s'.Consistent ∧ s'.knowledge = s.knowledge.fold delta := by
  cases h with
  | removed hmember _ =>
      refine ⟨⟨?_, ?_⟩, ?_⟩
      · show (s.view.deleted node).ringZero.Holds (s.view.allNodes.erase node)
        rw [MembershipView.ringZero_deleted]
        exact holds_remove hs.ring (hs.ring.injOn (.inl hmember))
      · intro e he
        rcases MetadataManager.mem_remove.1 he with ⟨hne, hold⟩
        exact Finset.mem_erase.2 ⟨hne, hs.metadata e hold⟩
      · exact congrArg (Knowledge.mk (s.view.allNodes.erase node)) MetadataManager.get_remove
  | stuck hmember hmissing =>
      -- Every member is on ring 0.
      have hcontains := (hs.ring.contains_iff (hs.ring.injOn (.inl hmember))).2 hmember
      rw [hmissing] at hcontains
      cases hcontains
  | unknown => exact ⟨hs, rfl⟩
  | rejected => exact ⟨⟨hs.ring, hs.metadata⟩, rfl⟩
  | admitted nodeId habsent _ _ hring =>
      have hnew : node ∉ s.metadata.roleMap := fun hmem => habsent (hs.metadata node hmem)
      refine ⟨⟨?_, ?_⟩, ?_⟩
      · show (s.view.added node nodeId).ringZero.Holds (insert node s.view.allNodes)
        rw [MembershipView.ringZero_added]
        exact holds_insert hs.ring (hs.ring.injOn (.inr hring))
      · intro e he
        split at he
        · exact Finset.mem_insert_of_mem (hs.metadata e he)
        · rcases MetadataManager.mem_add.1 he with rfl | hold
          · exact Finset.mem_insert_self _ _
          · exact Finset.mem_insert_of_mem (hs.metadata e hold)
      · refine congrArg (Knowledge.mk (insert node s.view.allNodes)) ?_
        dsimp only
        generalize (s.joinerMetadata.lookup node).getD default = metadata
        split
        · rename_i hempty
          -- Empty metadata is not stored, and it is what `get` reports anyway.
          have hdefault : metadata = s.metadata.get node := by
            rw [MetadataManager.get_eq_default hnew]
            cases metadata
            cases hempty
            rfl
          rw [hdefault]
          exact (Function.update_eq_self node s.metadata.get).symm
        · exact MetadataManager.get_add hnew

theorem NodeStep.k (h : NodeStep node s s' delta) : s'.view.k = s.view.k := by
  cases h with
  | removed => rfl
  | stuck => rfl
  | unknown => rfl
  | rejected => rfl
  | admitted => rfl

/-- A step leads to a valid view when the members do not collide afterwards. -/
theorem NodeStep.valid_of_free (h : NodeStep node s s' delta) (hvalid : s.view.Valid)
    (hfree : CollisionFree s.view.k s'.view.allNodes) : s'.view.Valid := by
  cases h with
  | removed hmember =>
      refine hvalid.deleted ?_
      rw [Finset.insert_eq_of_mem hmember]
      exact hvalid.free
  | stuck => exact hvalid
  | unknown => exact hvalid
  | rejected => exact hvalid
  | admitted => exact hvalid.added hfree

/-- The members after a step are old members and the endpoint of the step. -/
theorem NodeStep.members_subset (h : NodeStep node s s' delta) :
    s'.view.allNodes ⊆ insert node s.view.allNodes := by
  cases h with
  | removed => exact (Finset.erase_subset _ _).trans (Finset.subset_insert _ _)
  | stuck => exact Finset.subset_insert _ _
  | unknown => exact Finset.subset_insert _ _
  | rejected => exact Finset.subset_insert _ _
  | admitted => exact Finset.Subset.refl _

theorem NodeStep.valid (h : NodeStep node s s' delta) (hvalid : s.view.Valid)
    (hfree : CollisionFree s.view.k (insert node s.view.allNodes)) :
    s'.view.Valid ∧ s'.view.k = s.view.k :=
  ⟨h.valid_of_free hvalid (hfree.subset h.members_subset), h.k⟩

/-! ## The whole proposal -/

/-- The view stays valid when the members never collide along the way. -/
theorem applyNodes_valid {proposal : List Endpoint} :
    ∀ {s : ServiceState}, s.view.Valid →
      (∀ before, before <+: proposal →
        CollisionFree s.view.k (ServiceState.applyNodes before s).1.view.allNodes) →
      (ServiceState.applyNodes proposal s).1.view.Valid ∧
        (ServiceState.applyNodes proposal s).1.view.k = s.view.k := by
  induction proposal with
  | nil => exact fun hvalid _ => ⟨hvalid, rfl⟩
  | cons node nodes ih =>
      intro s hvalid hfree
      have hstep := s.applyNode_step node
      have hfirst : (s.applyNode node).1.view.Valid :=
        hstep.valid_of_free hvalid (hfree [node] ⟨nodes, rfl⟩)
      have hrest : ∀ before, before <+: nodes → CollisionFree (s.applyNode node).1.view.k
          (ServiceState.applyNodes before (s.applyNode node).1).1.view.allNodes := by
        intro before hbefore
        rw [hstep.k]
        exact hfree (node :: before) ((List.prefix_cons_inj node).2 hbefore)
      rcases ih hfirst hrest with ⟨hlast, hk⟩
      exact ⟨hlast, hk.trans hstep.k⟩

theorem NodeSteps.consistent {proposal : List Endpoint} (h : NodeSteps proposal s s' delta)
    (hs : s.Consistent) : s'.Consistent ∧ s'.knowledge = s.knowledge.fold delta := by
  induction h with
  | nil s => exact ⟨hs, rfl⟩
  | cons hstep _ ih =>
      rcases hstep.consistent hs with ⟨hconsistent, hfirst⟩
      rcases ih hconsistent with ⟨hlast, hrest⟩
      refine ⟨hlast, ?_⟩
      rw [hrest, hfirst]
      exact List.foldl_append.symm

theorem NodeSteps.valid {proposal : List Endpoint} (h : NodeSteps proposal s s' delta)
    (hvalid : s.view.Valid)
    (hfree : CollisionFree s.view.k (s.view.allNodes ∪ proposal.toFinset)) :
    s'.view.Valid ∧ s'.view.k = s.view.k := by
  induction h with
  | nil s => exact ⟨hvalid, rfl⟩
  | @cons node nodes s t u first rest hstep hsteps ih =>
      have hhead : insert node s.view.allNodes ⊆ s.view.allNodes ∪ (node :: nodes).toFinset := by
        intro e he
        rcases Finset.mem_insert.1 he with rfl | hold
        · exact Finset.mem_union_right _ (by simp)
        · exact Finset.mem_union_left _ hold
      rcases hstep.valid hvalid (hfree.subset hhead) with ⟨hvalidT, hkT⟩
      have htail : t.view.allNodes ∪ nodes.toFinset ⊆
          s.view.allNodes ∪ (node :: nodes).toFinset := by
        intro e he
        rcases Finset.mem_union.1 he with hmember | hlater
        · exact hhead (hstep.members_subset hmember)
        · exact Finset.mem_union_right _ (by simp_all)
      rcases ih hvalidT (hkT ▸ hfree.subset htail) with ⟨hvalidU, hkU⟩
      exact ⟨hvalidU, hkU.trans hkT⟩

theorem NodeSteps.exact {proposal : List Endpoint} (h : NodeSteps proposal s s' delta)
    (hvalid : s.view.Valid) (hmetadata : s.MetadataOfMembers)
    (hfree : CollisionFree s.view.k (s.view.allNodes ∪ proposal.toFinset)) :
    s'.view.Valid ∧ s'.view.k = s.view.k ∧ s'.MetadataOfMembers ∧
      s'.knowledge = s.knowledge.fold delta := by
  rcases h.valid hvalid hfree with ⟨hvalid', hk⟩
  rcases h.consistent ⟨hvalid.holds _ MembershipView.ringZero_mem, hmetadata⟩ with
    ⟨hconsistent, hknowledge⟩
  exact ⟨hvalid', hk, hconsistent.metadata, hknowledge⟩

/-! ## The event -/

namespace ServiceState

variable (s : ServiceState) (env : Environment) (proposal : List Endpoint)

/-- A decision shows the view that the loop leads to. -/
theorem decideViewChange_shows : ∃ w, (s.appliedTo proposal).1.view.Shows w ∧
    (s.decideViewChange env proposal).1.view.Shows w :=
  ⟨_, (s.decideViewChange_decided env proposal).view.shows,
    (MembershipView.Refreshes.current _).shows⟩

/-- A decision publishes one `VIEW_CHANGE` event. -/
theorem published_iff {change : ClusterStatusChange} :
    .publish .viewChange change ∈ (s.decideViewChange env proposal).2 ↔
      change = s.changeOf proposal := by
  have hmem : ∀ effects : List Effect, change ∈ viewChanges effects ↔
      .publish .viewChange change ∈ effects := by
    intro effects
    rw [viewChanges, List.mem_filterMap]
    constructor
    · rintro ⟨e, he, heq⟩
      unfold Effect.viewChange? at heq
      split at heq
      · cases heq
        exact he
      · cases heq
    · exact fun h => ⟨_, h, rfl⟩
  have hall := viewChanges_decide s env proposal
  -- Replacing the instance publishes nothing.
  have hreplace : viewChanges ((s.decideViewChange env proposal).1.reinstateFastPaxos).2 = [] := by
    rw [reinstateFastPaxos_effects]
    cases (s.decideViewChange env proposal).1.pendingFallback with
    | none => rfl
    | some timer => rfl
  rw [decideAndReplace, Outcome.andThen_effects, viewChanges_append, hreplace, List.append_nil]
    at hall
  rw [← hmem, hall, List.mem_singleton]

/-- The event of a decision tells a subscriber exactly what changed. -/
theorem viewChange_exact (hvalid : s.view.Valid) (hmetadata : s.MetadataOfMembers)
    (hfree : CollisionFree s.view.k (s.view.allNodes ∪ proposal.toFinset)) :
    ∃ change, (∀ c, .publish .viewChange c ∈ (s.decideViewChange env proposal).2 ↔ c = change) ∧
      change.membership.toFinset = (s.knowledge.fold change.delta).members ∧
      (s.decideViewChange env proposal).1.view.getRing 0 = .ok change.membership ∧
      (∀ e, (s.decideViewChange env proposal).1.metadata.get e =
        (s.knowledge.fold change.delta).metadata e) ∧
      (s.decideViewChange env proposal).1.MetadataOfMembers ∧
      change.configurationId =
        (s.decideViewChange env proposal).1.view.currentConfigurationId.2 := by
  rcases (applyNodes_steps proposal s.cancelFailureDetectors.1).exact hvalid hmetadata hfree with
    ⟨hvalid', _, hmetadata', hknowledge⟩
  rcases s.decideViewChange_shows env proposal with ⟨w, hview, hsame⟩
  -- Replacing the instance once more leaves the metadata alone.
  have hmeta : (s.decideViewChange env proposal).1.metadata =
      (s.appliedTo proposal).1.metadata := (s.decideViewChange_decided env proposal).metadata
  have hrings : (s.decideViewChange env proposal).1.view.rings =
      (s.appliedTo proposal).1.view.rings := hsame.rings.symm.trans hview.rings
  have hnodes : (s.decideViewChange env proposal).1.view.allNodes =
      (s.appliedTo proposal).1.view.allNodes := hsame.allNodes.symm.trans hview.allNodes
  have hknown : (s.appliedTo proposal).1.knowledge =
      s.knowledge.fold (s.changeOf proposal).delta := hknowledge
  refine ⟨s.changeOf proposal, fun c => s.published_iff env proposal, ?_, ?_, ?_, ?_, ?_⟩
  · ext e
    have hring : e ∈ (s.appliedTo proposal).1.view.ringZero.ordered ↔
        e ∈ (s.appliedTo proposal).1.view.allNodes :=
      (hvalid'.holds _ MembershipView.ringZero_mem).mem_ordered
    rw [List.mem_toFinset, changeOf_membership, hring, ← hknown]
    rfl
  · rw [MembershipView.getRing_zero, MembershipView.ringZero_eq hrings, changeOf_membership]
  · intro e
    rw [← hknown, hmeta]
    rfl
  · intro e he
    rw [hnodes]
    rw [hmeta] at he
    exact hmetadata' e he
  · exact hview.configurationId.symm.trans hsame.configurationId

end ServiceState

end Delta

/-! ### A removal, a join, an unknown joiner and a repeat -/

section Sample

attribute [local instance] xxh64Reference

namespace ServiceState

/-- Two members, one with metadata; the id and the metadata of `hostC` are known. -/
def mixedState : Option ServiceState :=
  (sampleCluster 1 1 [⟨1, 1⟩] [hostA, hostB]).map fun state =>
    { state with
      metadata := state.metadata.add [(hostB, ⟨Finmap.singleton "role" [98]⟩)]
      joinerUuid := Finmap.singleton hostC ⟨2, 2⟩
      joinerMetadata := Finmap.singleton hostC ⟨Finmap.singleton "role" [99]⟩ }

def mixedProposal : List Endpoint :=
  [hostB, hostC, hostEndpoint "10.0.0.6" 1, hostB]

theorem mixedState_valid {state : ServiceState} (h : mixedState = some state) :
    state.view.Valid := by
  rcases Option.map_eq_some_iff.1 h with ⟨cluster, hcluster, rfl⟩
  rcases sampleCluster_boots hcluster with ⟨effects, view, detector, _, hbooted, hview, _⟩
  have hfree : CollisionFree 3 [hostA, hostB].toFinset := by
    decide +kernel
  exact hbooted.view.valid (MembershipView.Valid.of_bootstrap hview hfree).1

theorem mixedState_facts :
    (mixedState.map fun state => (state.view.k, state.view.allNodes, state.metadata.roleMap.keys,
      (state.changeOf mixedProposal).delta)) =
        some (3, {hostA, hostB}, {hostB},
          [⟨hostB, .down, ⟨Finmap.singleton "role" [98]⟩⟩,
            ⟨hostC, .up, ⟨Finmap.singleton "role" [99]⟩⟩]) := by
  decide +kernel

theorem mixedState_exact :
    ∃ state, ∃ change : ClusterStatusChange, mixedState = some state ∧
      change.delta = [⟨hostB, .down, ⟨Finmap.singleton "role" [98]⟩⟩,
        ⟨hostC, .up, ⟨Finmap.singleton "role" [99]⟩⟩] ∧
      (state.decideViewChange sampleEnvironment mixedProposal).1.view.getRing 0 =
        .ok change.membership ∧
      change.membership.toFinset = (state.knowledge.fold change.delta).members := by
  rcases Option.map_eq_some_iff.1 mixedState_facts with ⟨state, hstate, heq⟩
  simp only [Prod.mk.injEq] at heq
  rcases heq with ⟨hk, hnodes, hkeys, hdelta⟩
  have hmetadata : state.MetadataOfMembers := by
    intro e he
    have hmem := Finmap.mem_keys.2 he
    rw [hkeys, Finset.mem_singleton] at hmem
    rw [hnodes, hmem]
    decide +kernel
  have hfree : CollisionFree state.view.k (state.view.allNodes ∪ mixedProposal.toFinset) := by
    rw [hk, hnodes]
    decide +kernel
  rcases state.viewChange_exact sampleEnvironment mixedProposal (mixedState_valid hstate) hmetadata
    hfree with ⟨change, hpublished, hmembers, hring, _⟩
  have hchange : state.changeOf mixedProposal = change :=
    (hpublished _).1 ((state.published_iff sampleEnvironment mixedProposal).2 rfl)
  exact ⟨state, change, hstate, hchange ▸ hdelta, hring, hmembers⟩

end ServiceState

end Sample

end Rapid
