import Rapid.Shard.ShardOrder
import Rapid.Service.Configurations
import Rapid.Service.ProposalOrder

/-!
# Subscriber — what the actor tells about itself

The answers to queries and the `VIEW_CHANGE` events add up: an index that is right for the view the
actor is in stays right when the events of the next commands are folded into it. The events of a
run lead from one epoch to the next (`Act.leads`), and no epoch comes back.
-/

namespace Rapid

open Foundations

/-! ## Metadata -/

namespace MetadataManager

variable {manager : MetadataManager}

theorem paired_new : new.Paired where
  own := by
    intro e x h
    simp [new] at h
  kept := by
    intro e he
    exact absurd he Finmap.notMem_empty

theorem Paired.addEntry (h : manager.Paired) (entry : Endpoint × Metadata) :
    (manager.addEntry entry).Paired := by
  constructor
  · intro e x hlookup
    unfold MetadataManager.addEntry at hlookup
    dsimp only at hlookup
    split at hlookup
    · exact h.own e x hlookup
    · by_cases he : e = entry.1
      · subst he
        rw [Finmap.lookup_insert] at hlookup
        exact (Option.some.inj hlookup).symm
      · rw [Finmap.lookup_insert_of_ne _ he] at hlookup
        exact h.own e x hlookup
  · intro e he
    -- The entry is stored only where there is none yet.
    have hkept : e = entry.1 ∨ e ∈ manager.endpointObjs := by
      unfold MetadataManager.addEntry at he
      dsimp only at he
      split at he
      · exact .inr (h.kept e he)
      · exact (Finmap.mem_insert.1 he).imp_right (h.kept e)
    unfold MetadataManager.addEntry
    dsimp only
    split
    · rename_i hobj
      rcases hkept with rfl | hold
      · exact hobj
      · exact hold
    · exact Finmap.mem_insert.2 hkept

theorem Paired.add (h : manager.Paired) (entries : List (Endpoint × Metadata)) :
    (manager.add entries).Paired := by
  unfold MetadataManager.add
  induction entries generalizing manager with
  | nil => exact h
  | cons entry entries ih => exact ih (h.addEntry entry)

theorem Paired.remove (h : manager.Paired) (e : Endpoint) : (manager.remove e).Paired := by
  constructor
  · intro x y hlookup
    by_cases hx : x = e
    · rw [hx, MetadataManager.remove, Finmap.lookup_erase] at hlookup
      cases hlookup
    · rw [MetadataManager.remove, Finmap.lookup_erase_ne hx] at hlookup
      exact h.own x y hlookup
  · intro x hx
    rcases Finmap.mem_erase.1 hx with ⟨hne, hold⟩
    exact Finmap.mem_erase.2 ⟨hne, h.kept x hold⟩

theorem mem_add_entries {entries : List (Endpoint × Metadata)} {e : Endpoint}
    (he : e ∈ (manager.add entries).roleMap) :
    e ∈ manager.roleMap ∨ e ∈ entries.map Prod.fst := by
  unfold add at he
  induction entries generalizing manager with
  | nil => exact .inl he
  | cons entry entries ih =>
      rcases ih he with hfirst | hrest
      · have hadd : e ∈ (manager.add [entry]).roleMap := hfirst
        rcases mem_add.1 hadd with rfl | hold
        · exact .inr List.mem_cons_self
        · exact .inl hold
      · exact .inr (List.mem_cons_of_mem _ hrest)

end MetadataManager

section Subscriber

variable [Xxh64]

/-! ## An actor that can be asked -/

/-- Ring 0 holds the members under the keys of seed 0, and the metadata of members only is kept,
each with its endpoint. -/
structure ServiceState.Reports (s : ServiceState) : Prop where
  consistent : s.Consistent
  seed : s.view.ringZero.seed = 0
  paired : s.metadata.Paired

/-- The actor has taken over the view and the metadata that it knows. -/
structure Epoch where
  configuration : Configuration
  configurationId : ConfigurationId
  knowledge : Knowledge

/-- Nothing has changed, or the actor has moved on for good. -/
def Epoch.Before (e f : Epoch) : Prop :=
  f = e ∨ e.configuration < f.configuration

omit [Xxh64] in
theorem Epoch.Before.trans {e f g : Epoch} (h : e.Before f) (h' : f.Before g) : e.Before g := by
  rcases h with rfl | hlt
  · exact h'
  · rcases h' with rfl | hlt'
    · exact .inr hlt
    · exact .inr (hlt.trans hlt')

omit [Xxh64] in
theorem Epoch.Before.le {e f : Epoch} (h : e.Before f) : e.configuration ≤ f.configuration := by
  rcases h with rfl | hlt
  · exact le_rfl
  · exact hlt.le

def ServiceState.epoch (s : ServiceState) : Epoch where
  configuration := s.view.configuration
  configurationId := s.view.currentConfigurationId.2
  knowledge := s.knowledge

variable {s t : ServiceState} {env : Environment} {cmd : ServiceCommand} {effects : List Effect}

namespace ServiceState

theorem Reports.keeps (h : s.Reports) (hview : s.view.Keeps t.view)
    (hmetadata : t.metadata = s.metadata) : t.Reports ∧ t.epoch = s.epoch := by
  refine ⟨⟨⟨?_, ?_⟩, ?_, ?_⟩, ?_⟩
  · rw [hview.ringZero, hview.allNodes]
    exact h.consistent.ring
  · unfold MetadataOfMembers
    rw [hview.allNodes, hmetadata]
    exact h.consistent.metadata
  · rw [hview.ringZero]
    exact h.seed
  · rw [hmetadata]
    exact h.paired
  · simp only [epoch, knowledge, hview.configuration, hview.configurationId, hview.allNodes,
      hmetadata]

theorem Reports.mem_memberlist (h : s.Reports) {e : Endpoint} :
    e ∈ s.memberlist ↔ e ∈ s.view.allNodes := by
  rw [memberlist_eq]
  exact h.consistent.ring.mem_ordered

/-- What the three queries return, asked in one piece, tells what the actor knows. -/
theorem Reports.fold_snapshot (h : s.Reports) (order : HashOrder EndpointKey) :
    Knowledge.none.fold (snapshotDelta s.memberlist (s.metadataSnapshot order)) = s.knowledge := by
  rw [metadataSnapshot, fold_snapshotDelta h.paired, knowledge, Knowledge.mk.injEq]
  constructor
  · ext e
    rw [List.mem_toFinset, h.mem_memberlist]
  · funext e
    split
    · rfl
    · rename_i hout
      refine (MetadataManager.get_eq_default ?_).symm
      exact fun hmem => hout (h.mem_memberlist.2 (h.consistent.metadata e hmem))

/-- Telling a subscriber what it knows changes nothing. -/
theorem Reports.fold_current (h : s.Reports) (order : HashOrder EndpointKey) :
    s.knowledge.fold (snapshotDelta s.memberlist (s.metadataSnapshot order)) = s.knowledge := by
  unfold snapshotDelta
  simp only [metadataSnapshot, lookup_all h.paired order]
  rw [fold_ups, knowledge, Knowledge.mk.injEq]
  constructor
  · ext e
    rw [Finset.mem_union, List.mem_toFinset, h.mem_memberlist, or_self]
  · funext e
    split
    · rfl
    · rfl

end ServiceState

/-! ## Decisions -/

theorem NodeStep.paired {node : Endpoint} {delta : List NodeStatusChange}
    (h : NodeStep node s t delta) (hpaired : s.metadata.Paired) : t.metadata.Paired := by
  cases h with
  | removed => exact hpaired.remove node
  | stuck => exact hpaired.remove node
  | unknown => exact hpaired
  | rejected => exact hpaired
  | admitted =>
      dsimp only
      split
      · exact hpaired
      · exact hpaired.add _

theorem NodeSteps.reports {proposal : List Endpoint} {delta : List NodeStatusChange}
    (h : NodeSteps proposal s t delta) (hs : s.Reports) : t.Reports := by
  induction h with
  | nil s => exact hs
  | cons hstep _ ih =>
      exact ih ⟨(hstep.consistent hs.consistent).1, (ServiceState.seed_of_step hstep).trans hs.seed,
        hstep.paired hs.paired⟩

namespace ServiceState

variable (s)

/-- A decision takes the actor from one epoch to the next, as its event says. -/
theorem epoch_decide (env : Environment) (proposal : List Endpoint) (hs : s.Reports) :
    (s.decideAndReplace env proposal).1.Reports ∧
      (s.changeOf proposal).configurationId =
        (s.decideAndReplace env proposal).1.epoch.configurationId ∧
      s.epoch.knowledge.fold (s.changeOf proposal).delta =
        (s.decideAndReplace env proposal).1.epoch.knowledge ∧
      s.epoch.Before (s.decideAndReplace env proposal).1.epoch ∧
      (s.Idle proposal → (s.decideAndReplace env proposal).1.epoch = s.epoch) := by
  have hcancelled : s.cancelFailureDetectors.1.Reports :=
    (hs.keeps s.calm_cancelFailureDetectors.quiet.view.keeps rfl).1
  have hsteps := s.appliedTo_steps proposal
  have hdecided := s.decideViewChange_decided env proposal
  -- After the loop over the proposal only caches, timers and the consensus instance change.
  have hlast : (s.decideAndReplace env proposal).1.Reports ∧
      (s.decideAndReplace env proposal).1.epoch = (s.appliedTo proposal).1.epoch :=
    (hsteps.reports hcancelled).keeps hdecided.view.keeps hdecided.metadata
  -- No node of the proposal is a member or a known joiner: the loop changes nothing.
  have hidle : s.Idle proposal → (s.appliedTo proposal).1.epoch = s.epoch := by
    intro hidle
    rcases hsteps.stays hidle with ⟨hview, hrest⟩
    have hmetadata : (s.appliedTo proposal).1.metadata = s.metadata :=
      (hrest hcancelled.consistent).1
    have hsame : (s.appliedTo proposal).1.view = s.view := hview
    refine (hs.keeps ?_ hmetadata).2
    rw [hsame]
    exact .refl _
  rw [hlast.2]
  refine ⟨hlast.1, rfl, (hsteps.consistent hcancelled.consistent).2.symm, ?_, hidle⟩
  by_cases hmoves : s.Idle proposal
  · exact .inl (hidle hmoves)
  · exact .inr (hsteps.moves hmoves)

/-- The view that the actor can be asked for. -/
def clusterView {s : ServiceState} (h : s.Reports) (order : HashOrder EndpointKey) :
    ClusterView where
  configurationId := s.epoch.configurationId
  ring := s.memberlist
  metadata := s.metadataSnapshot order
  sorted := by
    have hkey : s.view.ringZero.key = ringZeroKey := by
      funext e
      rw [Ring.key, h.seed]
      rfl
    rw [memberlist_eq, ← hkey]
    exact h.consistent.ring.keySorted

theorem clusterView_knowledge {s : ServiceState} (h : s.Reports) (order : HashOrder EndpointKey) :
    (clusterView h order).knowledge = s.knowledge :=
  h.fold_snapshot order

/-- The event of a decision leads from the view before it to the view after it. -/
theorem chain_decide (env : Environment) (proposal : List Endpoint) (hs : s.Reports)
    (order : HashOrder EndpointKey) :
    ∃ ht : (s.decideAndReplace env proposal).1.Reports,
      Chain (clusterView hs order) [s.changeOf proposal] (clusterView ht order) := by
  rcases s.epoch_decide env proposal hs with ⟨ht, hid, hfold, _⟩
  refine ⟨ht, .cons hid ?_ (.nil _)⟩
  rw [clusterView_knowledge, clusterView_knowledge]
  exact hfold

end ServiceState

/-! ## The events of a command -/

/-- The events lead from the first epoch through the others, each from one to the next. -/
inductive Leads : Epoch → List ClusterStatusChange → List Epoch → Prop
  | nil (e : Epoch) : Leads e [] []
  | cons {e f : Epoch} {ev : ClusterStatusChange} {events : List ClusterStatusChange}
      {epochs : List Epoch} (hid : ev.configurationId = f.configurationId)
      (hfold : e.knowledge.fold ev.delta = f.knowledge) (hbefore : e.Before f) :
      Leads f events epochs → Leads e (ev :: events) (f :: epochs)

omit [Xxh64] in
theorem Leads.append {e : Epoch} {events more : List ClusterStatusChange} {epochs later : List Epoch}
    (h : Leads e events epochs) (h' : Leads (epochs.getLastD e) more later) :
    Leads e (events ++ more) (epochs ++ later) := by
  induction h with
  | nil e => exact h'
  | cons hid hfold hbefore _ ih =>
      refine .cons hid hfold hbefore (ih ?_)
      rw [List.getLastD_cons] at h'
      exact h'

omit [Xxh64] in
theorem getLastD_append (e : Epoch) (epochs later : List Epoch) :
    (epochs ++ later).getLastD e = later.getLastD (epochs.getLastD e) := by
  induction epochs generalizing e with
  | nil => rfl
  | cons f epochs ih => rw [List.cons_append, List.getLastD_cons, List.getLastD_cons, ih]

/-- The event says what was known before. -/
def ClusterStatusChange.Repeats (ev : ClusterStatusChange) (e : Epoch) : Prop :=
  ev.configurationId = e.configurationId ∧ e.knowledge.fold ev.delta = e.knowledge

omit [Xxh64] in
theorem Leads.repeats {e : Epoch} {events : List ClusterStatusChange}
    (h : ∀ ev ∈ events, ev.Repeats e) : Leads e events (events.map fun _ => e) := by
  induction events with
  | nil => exact .nil e
  | cons ev events ih =>
      rcases h ev List.mem_cons_self with ⟨hid, hfold⟩
      exact .cons hid hfold (.inl rfl) (ih fun ev' hev' => h ev' (List.mem_cons_of_mem _ hev'))

omit [Xxh64] in
theorem getLastD_repeats (e : Epoch) (events : List ClusterStatusChange) :
    (events.map fun _ => e).getLastD e = e := by
  induction events with
  | nil => rfl
  | cons ev events ih => rw [List.map_cons, List.getLastD_cons, ih]

/-- Moves say what was known before. -/
theorem EffectPath.repeats (h : EffectPath (Move env cmd) s effects t) (hs : s.Reports) :
    t.Reports ∧ t.epoch = s.epoch ∧ ∀ ev ∈ viewChanges effects, ev.Repeats s.epoch := by
  have hok : ∀ e ∈ effects, True := fun _ _ => trivial
  have hstart : s.Reports ∧ s.epoch = s.epoch ∧ ∀ ev ∈ viewChanges [], ev.Repeats s.epoch :=
    ⟨hs, rfl, fun ev hev => by cases hev⟩
  have hinv := h.invariant (I := fun u trace => u.Reports ∧ u.epoch = s.epoch ∧
    ∀ ev ∈ viewChanges trace, ev.Repeats s.epoch) ?_ hok hstart
  · simpa using hinv
  · rintro u es v trace ⟨hu, hepoch, hevents⟩ _ hmove
    rcases hmove.keeps with ⟨hview, hmetadata⟩
    have hkept := hu.keeps hview hmetadata
    refine ⟨hkept.1, hkept.2.trans hepoch, ?_⟩
    intro ev hev
    rw [viewChanges_append, List.mem_append] at hev
    rcases hev with hold | hnew
    · exact hevents ev hold
    · rcases hmove.viewChanges with hnone | ⟨_, heffects⟩
      · rw [hnone] at hnew
        cases hnew
      · rw [heffects] at hnew
        cases List.mem_singleton.1 hnew
        rw [← hepoch]
        -- The initial view is told by an actor that may have refreshed its id first.
        have hcurrent := hu.keeps u.quiet_configurationId.view.keeps
          u.quiet_configurationId.metadata
        refine ⟨rfl, ?_⟩
        have hfold := hcurrent.1.fold_current env.metadataOrder
        have hknown : u.configurationId.1.knowledge = u.knowledge :=
          congrArg Epoch.knowledge hcurrent.2
        rw [hknown] at hfold
        exact hfold

/-- The events of a command lead from the epoch before it to the epoch after it. -/
theorem Act.leads (h : Act env cmd s effects t) (hs : s.Reports) :
    t.Reports ∧ s.epoch.Before t.epoch ∧
      ((∀ u proposal, .call (.decideViewChange u proposal) ∈ effects → u.Idle proposal) →
        t.epoch = s.epoch) ∧
      ∃ epochs, Leads s.epoch (viewChanges effects) epochs ∧ epochs.getLastD s.epoch = t.epoch ∧
        ∀ e ∈ epochs, e = s.epoch ∨ e = t.epoch := by
  cases h with
  | stay hpath =>
      rcases EffectPath.repeats hpath hs with ⟨ht, hepoch, hevents⟩
      refine ⟨ht, .inl hepoch, fun _ => hepoch, _, .repeats hevents, ?_, ?_⟩
      · rw [getLastD_repeats, hepoch]
      · intro e he
        rcases List.mem_map.1 he with ⟨ev, _, rfl⟩
        exact .inl rfl
  | @decide u _ before after proposal hpath hcalm =>
      rcases EffectPath.repeats hpath hs with ⟨hu, hepoch, hevents⟩
      rcases u.epoch_decide env proposal hu with ⟨hreports, hid, hfold, hbefore, hidle⟩
      have hlast := hreports.keeps hcalm.quiet.view.keeps hcalm.quiet.metadata
      rw [hepoch] at hfold hbefore hidle
      rw [hlast.2]
      -- Before the decision only the current epoch is repeated, after it nothing is published.
      have hchanges : viewChanges (before ++ (u.decideAndReplace env proposal).2 ++ after) =
          viewChanges before ++ [u.changeOf proposal] := by
        rw [viewChanges_append, viewChanges_append, viewChanges_decide,
          viewChanges_silent hcalm.silent, List.append_nil]
      refine ⟨hlast.1, hbefore, ?_, (viewChanges before).map (fun _ => s.epoch) ++
        [(u.decideAndReplace env proposal).1.epoch], ?_, ?_, ?_⟩
      · intro hall
        refine hidle (hall u proposal ?_)
        have hcall := u.call_mem_decide env proposal
        simp [hcall]
      · rw [hchanges]
        refine (Leads.repeats hevents).append ?_
        rw [getLastD_repeats]
        exact .cons hid hfold hbefore (.nil _)
      · simp
      · intro e he
        rcases List.mem_append.1 he with hold | hnew
        · rcases List.mem_map.1 hold with ⟨ev, _, rfl⟩
          exact .inl rfl
        · exact .inr (List.mem_singleton.1 hnew)

/-! ## Booting -/

theorem holds_foldl_insert (endpoints : List Endpoint) :
    ∀ {ring : Ring} {nodes : Finset Endpoint}, ring.Holds nodes →
      Set.InjOn ring.key (nodes ∪ endpoints.toFinset : Finset Endpoint) →
        (endpoints.foldl (fun ring e => (ring.insert e).1) ring).Holds
            (nodes ∪ endpoints.toFinset) ∧
          (endpoints.foldl (fun ring e => (ring.insert e).1) ring).seed = ring.seed := by
  induction endpoints with
  | nil =>
      intro ring nodes h _
      simpa using h
  | cons e endpoints ih =>
      intro ring nodes h hfree
      have hunion : nodes ∪ (e :: endpoints).toFinset = insert e nodes ∪ endpoints.toFinset := by
        ext x
        simp only [List.toFinset_cons, Finset.mem_union, Finset.mem_insert, List.mem_toFinset]
        tauto
      rw [hunion] at hfree ⊢
      have hfirst : (ring.insert e).1.Holds (insert e nodes) := by
        refine holds_insert h (hfree.mono ?_)
        rw [Finset.coe_subset]
        exact Finset.subset_union_left
      -- Inserting leaves the seed and so the keys of the other endpoints.
      have hkey : (ring.insert e).1.key = ring.key := by
        funext x
        rw [Ring.key, Ring.key, Ring.seed_insert]
      rcases ih hfirst (by rw [hkey]; exact hfree) with ⟨hholds, hseed⟩
      exact ⟨hholds, hseed.trans Ring.seed_insert⟩

namespace MembershipView

/-- The members and ring 0 of a bootstrapped view. -/
theorem ringZero_bootstrap {k : UInt8} {ids : List NodeId} {endpoints : List Endpoint}
    {v : MembershipView} (h : bootstrap k ids endpoints = .ok v) :
    v.ringZero = endpoints.foldl (fun ring e => (ring.insert e).1) (Ring.new 0) ∧
      v.allNodes = endpoints.toFinset := by
  -- Only the second loop writes to the rings.
  have hendpoints : ∀ (endpoints : List Endpoint) (u : MembershipView),
      (endpoints.foldl addEndpoint u).ringZero =
        endpoints.foldl (fun ring e => (ring.insert e).1) u.ringZero := by
    intro endpoints
    induction endpoints with
    | nil => exact fun u => rfl
    | cons e endpoints ih =>
        intro u
        have hring : (u.addEndpoint e).ringZero = (u.ringZero.insert e).1 :=
          ringZero_map (f := fun ring => (ring.insert e).1) rfl
        rw [List.foldl_cons, ih, hring]
        rfl
  refine ⟨?_, (bootstrap_holds h).2.1⟩
  rcases bootstrap_loops h with ⟨u, hnew, rfl⟩
  have hring : u.ringZero = Ring.new 0 := by
    unfold new at hnew
    split at hnew
    · cases hnew
      simp [ringZero]
    · cases hnew
  refine (hendpoints endpoints _).trans ?_
  rw [ringZero_eq (foldl_addIdentifier ids u).2.1, hring]

end MembershipView

namespace ServiceState

theorem finishCluster_reports {settings : Settings} {listen : Endpoint} {view : MembershipView}
    {detector : MultiNodeCutDetector} {metadata : MetadataManager} {k : UInt8} {ids : List NodeId}
    {endpoints : List Endpoint} (hview : MembershipView.bootstrap k ids endpoints = .ok view)
    (hkeys : Set.InjOn addressHashSeedZero (endpoints.toFinset : Finset Endpoint))
    (hpaired : metadata.Paired) (hmetadata : ∀ e ∈ metadata.roleMap, e ∈ endpoints) :
    (finishCluster listen settings view detector metadata).1.Reports := by
  rcases MembershipView.ringZero_bootstrap hview with ⟨hring, hnodes⟩
  -- Ring 0 holds the endpoints, for their addresses do not collide on it.
  have hempty : (Ring.new 0).Holds ∅ := by
    intro p
    simp [Ring.new]
  have hinjective : Set.InjOn (Ring.new 0).key (∅ ∪ endpoints.toFinset : Finset Endpoint) := by
    rw [Finset.empty_union]
    intro a ha b hb hab
    have hhash : addressHash 0 a = addressHash 0 b := by
      simpa [Ring.key, Ring.new] using congrArg Int64.toUInt64 hab
    exact hkeys ha hb hhash
  rcases holds_foldl_insert endpoints hempty hinjective with ⟨hholds, hseed⟩
  rw [Finset.empty_union] at hholds
  have hstart : ({ ServiceState.new listen view detector metadata settings with
      broadcaster := true
      fdFactory := true
      consensusClient := true } : ServiceState).Reports := by
    refine ⟨⟨?_, ?_⟩, ?_, hpaired⟩
    · show view.ringZero.Holds view.allNodes
      rw [hring, hnodes]
      exact hholds
    · intro e he
      show e ∈ view.allNodes
      rw [hnodes, List.mem_toFinset]
      exact hmetadata e he
    · show view.ringZero.seed = 0
      rw [hring]
      exact hseed
  rcases reinstateFastPaxos_state ({ ServiceState.new listen view detector metadata settings with
      broadcaster := true
      fdFactory := true
      consensusClient := true } : ServiceState) with ⟨fp, hreplaced⟩
  have hcalm := calm_rebuildDetectors ({ ServiceState.new listen view detector metadata settings with
      broadcaster := true
      fdFactory := true
      consensusClient := true } : ServiceState).reinstateFastPaxos.1
  refine (hstart.keeps ((MembershipView.Refreshes.keeps ?_).trans hcalm.quiet.view.keeps) ?_).1
  · rw [hreplaced]
    exact .current _
  · exact hcalm.quiet.metadata

omit [Xxh64] in
theorem paired_addOwn {metadata : MetadataManager} (h : metadata.Paired) (listen : Endpoint)
    (own : Metadata) : (addOwn metadata listen own).Paired := by
  unfold addOwn
  split
  · exact h
  · exact h.add _

omit [Xxh64] in
/-- Metadata of its own is stored for the node itself. -/
theorem mem_addOwn {metadata : MetadataManager} {listen e : Endpoint} {own : Metadata}
    (h : e ∈ (addOwn metadata listen own).roleMap) :
    e ∈ metadata.roleMap ∨ (e = listen ∧ own.metadata ≠ ∅) := by
  unfold addOwn at h
  split at h
  · exact .inl h
  · rename_i hnonempty
    rcases MetadataManager.mem_add.1 h with rfl | hold
    · exact .inr ⟨rfl, hnonempty⟩
    · exact .inl hold

/-- A seed node can be asked from the start. -/
theorem start_reports {settings : Settings} {listen : Endpoint} {own : Metadata} {nodeId : NodeId}
    {outcome : Outcome} (h : start settings listen own nodeId = .ok outcome) :
    outcome.1.Reports := by
  rcases built_of_ok h with ⟨view, detector, hview, _, rfl⟩
  refine finishCluster_reports hview (by simp) (paired_addOwn MetadataManager.paired_new listen own) ?_
  intro e he
  rcases mem_addOwn he with hnone | ⟨rfl, _⟩
  · exact absurd hnone Finmap.notMem_empty
  · exact List.mem_singleton_self _

/-- So can a joiner, when the response lists members that do not collide on ring 0 and metadata of
these members, and the joiner has metadata of its own only if it is listed. -/
theorem join_reports {settings : Settings} {listen : Endpoint} {own : Metadata}
    {response : JoinResponse} {outcome : Outcome} (h : join settings listen own response = .ok outcome)
    (hkeys : Set.InjOn addressHashSeedZero (response.endpoints.toFinset : Finset Endpoint))
    (hmetadata : ∀ e ∈ response.metadataKeys, e ∈ response.endpoints)
    (hown : own.metadata = ∅ ∨ listen ∈ response.endpoints) : outcome.1.Reports := by
  have hpaired : (MetadataManager.new.add
      (response.metadataKeys.zip response.metadataValues)).Paired :=
    MetadataManager.paired_new.add _
  have hlisted : ∀ e ∈ (MetadataManager.new.add
      (response.metadataKeys.zip response.metadataValues)).roleMap, e ∈ response.endpoints := by
    intro e he
    -- The metadata comes from the response.
    rcases MetadataManager.mem_add_entries he with hnone | hentry
    · exact absurd hnone Finmap.notMem_empty
    · rcases List.mem_map.1 hentry with ⟨p, hp, rfl⟩
      exact hmetadata _ (List.of_mem_zip hp).1
  rcases built_of_ok h with ⟨view, detector, hview, _, rfl⟩
  refine finishCluster_reports hview hkeys (paired_addOwn hpaired listen own) ?_
  intro e he
  rcases mem_addOwn he with hold | ⟨rfl, hnonempty⟩
  · exact hlisted e hold
  · exact hown.resolve_left hnonempty

end ServiceState

/-- An actor that could be asked when it booted can be asked in every state of its run. -/
theorem reports_of_step {run run' : ServiceRun} {a : Environment × ServiceCommand}
    (hstep : serviceSystem.step run a = some run') (hs : run.state.Reports) :
    run'.state.Reports := by
  simp only [serviceSystem] at hstep
  split at hstep
  · cases hstep
    have hact : Act a.1 a.2 run.state (run.state.handleCommand a.1 a.2).1.2
        (run.state.handleCommand a.1 a.2).1.1 := run.state.handleCommand_act
    exact (hact.leads hs).1
  · cases hstep

end Subscriber

end Rapid
