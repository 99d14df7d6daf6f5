import Rapid.Service.Frames
import Rapid.View.HistoryIndependence

/-!
# Decision — what applying a proposal does to the actor

`NodeStep` lists what the loop of `decide_view_change` can do with one endpoint of the proposal;
`Decided` is what the actor looks like, and what it has told the world, after a decision.
-/

namespace Rapid

open Foundations

variable [Xxh64]

/-! ## One endpoint of the proposal -/

/-- `NodeStep node s s' delta`: the loop body takes `s` to `s'` and reports `delta`. -/
inductive NodeStep (node : Endpoint) :
    ServiceState → ServiceState → List NodeStatusChange → Prop
  | removed (s : ServiceState) (hmember : node ∈ s.view.allNodes)
      (hring : s.view.ringZero.contains node = true) :
      NodeStep node s
        { s with
          view := s.view.deleted node
          metadata := s.metadata.remove node }
        [{ endpoint := node, status := .down, metadata := s.metadata.get node }]
  | stuck (s : ServiceState) (hmember : node ∈ s.view.allNodes)
      (hring : s.view.ringZero.contains node = false) :
      NodeStep node s { s with metadata := s.metadata.remove node }
        [{ endpoint := node, status := .down, metadata := s.metadata.get node }]
  | unknown (s : ServiceState) (habsent : node ∉ s.view.allNodes)
      (hlookup : s.joinerUuid.lookup node = none) : NodeStep node s s []
  | rejected (s : ServiceState) (nodeId : NodeId) (habsent : node ∉ s.view.allNodes)
      (hlookup : s.joinerUuid.lookup node = some nodeId)
      (hreason : s.view.isIdentifierPresent nodeId = true ∨
        s.view.ringZero.contains node = true) :
      NodeStep node s
        { s with
          joinerUuid := s.joinerUuid.erase node
          joinerMetadata := s.joinerMetadata.erase node } []
  | admitted (s : ServiceState) (nodeId : NodeId) (habsent : node ∉ s.view.allNodes)
      (hlookup : s.joinerUuid.lookup node = some nodeId)
      (hid : s.view.isIdentifierPresent nodeId = false)
      (hring : s.view.ringZero.contains node = false) :
      NodeStep node s
        { s with
          joinerUuid := s.joinerUuid.erase node
          joinerMetadata := s.joinerMetadata.erase node
          view := s.view.added node nodeId
          metadata :=
            if ((s.joinerMetadata.lookup node).getD default).metadata = ∅ then s.metadata
            else s.metadata.add [(node, (s.joinerMetadata.lookup node).getD default)] }
        [{ endpoint := node, status := .up, metadata := (s.joinerMetadata.lookup node).getD default }]

namespace ServiceState

variable (state : ServiceState)

theorem applyNode_step (node : Endpoint) :
    NodeStep node state (state.applyNode node).1 (state.applyNode node).2 := by
  unfold applyNode
  split
  · rename_i hpresent
    have hmember : node ∈ state.view.allNodes := of_decide_eq_true hpresent
    unfold removeMember MembershipView.ringDelete
    cases hring : state.view.ringZero.contains node with
    | true => exact .removed state hmember hring
    | false => exact .stuck state hmember hring
  · rename_i hpresent
    have habsent : node ∉ state.view.allNodes := fun hmem => hpresent (decide_eq_true hmem)
    unfold admitJoiner
    cases hlookup : state.joinerUuid.lookup node with
    | none => exact .unknown state habsent hlookup
    | some nodeId =>
        dsimp only
        unfold MembershipView.ringAdd
        cases hid : state.view.isIdentifierPresent nodeId with
        | true => exact .rejected state nodeId habsent hlookup (.inl hid)
        | false =>
            cases hring : state.view.ringZero.contains node with
            | true => exact .rejected state nodeId habsent hlookup (.inr hring)
            | false => exact .admitted state nodeId habsent hlookup hid hring

end ServiceState

/-- Applying a proposal changes the view, the metadata and the two joiner tables only. -/
def SameBut (s s' : ServiceState) : Prop :=
  s' = { s with
    view := s'.view
    metadata := s'.metadata
    joinerUuid := s'.joinerUuid
    joinerMetadata := s'.joinerMetadata }

section SameBut

omit [Xxh64]

variable {s s' : ServiceState} (h : SameBut s s')

include h

theorem SameBut.settings : s'.settings = s.settings := by
  rw [h]

theorem SameBut.myAddr : s'.myAddr = s.myAddr := by
  rw [h]

theorem SameBut.cutDetector : s'.cutDetector = s.cutDetector := by
  rw [h]

theorem SameBut.joinersToRespondTo : s'.joinersToRespondTo = s.joinersToRespondTo := by
  rw [h]

theorem SameBut.pendingFallback : s'.pendingFallback = s.pendingFallback := by
  rw [h]

theorem SameBut.timersSpawned : s'.timersSpawned = s.timersSpawned := by
  rw [h]

end SameBut

theorem NodeStep.sameBut {node : Endpoint} {s s' : ServiceState} {delta : List NodeStatusChange}
    (h : NodeStep node s s' delta) : SameBut s s' := by
  cases h with
  | removed => rfl
  | stuck => rfl
  | unknown => rfl
  | rejected => rfl
  | admitted => rfl

/-! ## The whole proposal -/

/-- The loop over a proposal, as a sequence of steps. -/
inductive NodeSteps : List Endpoint → ServiceState → ServiceState → List NodeStatusChange → Prop
  | nil (s : ServiceState) : NodeSteps [] s s []
  | cons {node : Endpoint} {nodes : List Endpoint} {s t u : ServiceState}
      {delta delta' : List NodeStatusChange} :
      NodeStep node s t delta → NodeSteps nodes t u delta' →
        NodeSteps (node :: nodes) s u (delta ++ delta')

theorem applyNodes_steps (proposal : List Endpoint) :
    ∀ s : ServiceState, NodeSteps proposal s (ServiceState.applyNodes proposal s).1
      (ServiceState.applyNodes proposal s).2 := by
  induction proposal with
  | nil => exact .nil
  | cons node nodes ih =>
      intro s
      exact .cons (s.applyNode_step node) (ih _)

theorem NodeSteps.sameBut {proposal : List Endpoint} {s s' : ServiceState}
    {delta : List NodeStatusChange} (h : NodeSteps proposal s s' delta) : SameBut s s' := by
  induction h with
  | nil s => rfl
  | cons hstep _ ih =>
      unfold SameBut at ih ⊢
      rw [ih, hstep.sameBut]

/-! ## Answering the parked joiners -/

namespace ServiceState

variable {s : ServiceState}

omit [Xxh64] in
/-- Exactly the replies parked for nodes of the proposal are answered. -/
theorem mem_answerParked {reply : Reply} {proposal : List Endpoint} {e : Effect} :
    ∀ {s : ServiceState}, e ∈ (answerParked reply proposal s).2 ↔
      ∃ node ∈ proposal, ∃ parked, s.joinersToRespondTo.lookup node = some parked ∧
        ∃ id ∈ parked, e = .reply id reply := by
  induction proposal with
  | nil =>
      intro s
      simp [answerParked]
  | cons node nodes ih =>
      intro s
      cases hlookup : s.joinersToRespondTo.lookup node with
      | none =>
          -- Nobody waits for `node`.
          have hskip : (answerParked reply (node :: nodes) s).2 =
              (answerParked reply nodes s).2 := by
            simp only [answerParked, hlookup]
          rw [hskip, ih]
          constructor
          · rintro ⟨n, hn, hrest⟩
            exact ⟨n, List.mem_cons_of_mem _ hn, hrest⟩
          · rintro ⟨n, hn, parked, hparked, hrest⟩
            rcases List.mem_cons.1 hn with rfl | htail
            · rw [hlookup] at hparked
              cases hparked
            · exact ⟨n, htail, parked, hparked, hrest⟩
      | some parked =>
          -- Whoever waits for `node` is answered, and the entry is taken out before the rest.
          have hanswer : (answerParked reply (node :: nodes) s).2 =
              parked.map (Effect.reply · reply) ++ (answerParked reply nodes
                { s with joinersToRespondTo := s.joinersToRespondTo.erase node }).2 := by
            simp only [answerParked, hlookup]
          rw [hanswer, List.mem_append, ih, List.mem_map]
          constructor
          · rintro (⟨id, hid, rfl⟩ | ⟨n, hn, parked', hparked', hrest⟩)
            · exact ⟨node, List.mem_cons_self, parked, hlookup, id, hid, rfl⟩
            · refine ⟨n, List.mem_cons_of_mem _ hn, parked', ?_, hrest⟩
              by_cases hne : n = node
              · subst hne
                simp at hparked'
              · rwa [Finmap.lookup_erase_ne hne] at hparked'
          · rintro ⟨n, hn, parked', hparked', id, hid, rfl⟩
            by_cases hne : n = node
            · subst hne
              rw [hlookup] at hparked'
              cases hparked'
              exact .inl ⟨id, hid, rfl⟩
            · rcases List.mem_cons.1 hn with rfl | htail
              · exact absurd rfl hne
              · exact .inr ⟨n, htail, parked',
                  (Finmap.lookup_erase_ne hne).trans hparked', id, hid, rfl⟩

omit [Xxh64] in
/-- Only the parked replies change, and those of the proposal are gone. -/
theorem answerParked_state (reply : Reply) (proposal : List Endpoint) :
    ∀ s : ServiceState, (answerParked reply proposal s).1 =
        { s with joinersToRespondTo := (answerParked reply proposal s).1.joinersToRespondTo } ∧
      ∀ node, (answerParked reply proposal s).1.joinersToRespondTo.lookup node =
        if node ∈ proposal then none else s.joinersToRespondTo.lookup node := by
  induction proposal with
  | nil =>
      intro s
      exact ⟨rfl, fun node => by simp [answerParked]⟩
  | cons first nodes ih =>
      intro s
      cases hlookup : s.joinersToRespondTo.lookup first with
      | none =>
          have hskip : (answerParked reply (first :: nodes) s).1 =
              (answerParked reply nodes s).1 := by
            simp only [answerParked, hlookup]
          rw [hskip]
          refine ⟨(ih s).1, ?_⟩
          intro node
          rw [(ih s).2 node]
          by_cases hne : node = first
          · subst hne
            -- Nobody waited for it, and nobody does.
            simp [hlookup]
          · simp [hne]
      | some parked =>
          have hanswer : (answerParked reply (first :: nodes) s).1 =
              (answerParked reply nodes
                { s with joinersToRespondTo := s.joinersToRespondTo.erase first }).1 := by
            simp only [answerParked, hlookup]
          rw [hanswer]
          refine ⟨?_, ?_⟩
          · exact (ih { s with joinersToRespondTo := s.joinersToRespondTo.erase first }).1
          · intro node
            rw [(ih _).2 node]
            by_cases hne : node = first
            · subst hne
              simp
            · simp [hne, Finmap.lookup_erase_ne hne]

end ServiceState

/-! ## The whole decision -/

/-- The actor once the proposal is applied, before anybody hears of it. -/
def ServiceState.appliedTo (s : ServiceState) (proposal : List Endpoint) :
    ServiceState × List NodeStatusChange :=
  ServiceState.applyNodes proposal s.cancelFailureDetectors.1

/-- The event that a decision publishes. -/
def ServiceState.changeOf (s : ServiceState) (proposal : List Endpoint) : ClusterStatusChange where
  configurationId := (s.appliedTo proposal).1.view.currentConfigurationId.2
  membership := (s.appliedTo proposal).1.configurationId.1.memberlist
  delta := (s.appliedTo proposal).2

/-- A reply to a node of the proposal that was parked when the decision came. -/
structure Answers (s : ServiceState) (proposal : List Endpoint) (e : Effect) : Prop where
  sent : ∃ node ∈ proposal, ∃ parked, s.joinersToRespondTo.lookup node = some parked ∧
    ∃ id ∈ parked, ∃ response : JoinResponse, e = .reply id (ServiceState.joinReply response) ∧
      response.statusCode = JoinStatusCode.safeToJoin.toInt32 ∧
      response.configurationId = (s.appliedTo proposal).1.view.currentConfigurationId.2 ∧
      response.endpoints = (s.appliedTo proposal).1.view.ringZero.ordered ∧
      response.identifiers = (s.appliedTo proposal).1.view.currentIdentifiers

/-- The actor after a decision, its instance replaced, and what it has told the world. -/
structure Decided (s : ServiceState) (proposal : List Endpoint) (s' : ServiceState)
    (effects : List Effect) : Prop where
  settings : s'.settings = s.settings
  myAddr : s'.myAddr = s.myAddr
  view : (s.appliedTo proposal).1.view.Refreshes s'.view
  cutDetector : s'.cutDetector = s.cutDetector.clear
  metadata : s'.metadata = (s.appliedTo proposal).1.metadata
  joinersToRespondTo : ∀ node, s'.joinersToRespondTo.lookup node =
    if node ∈ proposal then none else s.joinersToRespondTo.lookup node
  joinerUuid : s'.joinerUuid = (s.appliedTo proposal).1.joinerUuid
  joinerMetadata : s'.joinerMetadata = (s.appliedTo proposal).1.joinerMetadata
  lifecycle : s'.lifecycle = .running
  fastPaxos : s'.fastPaxos.isSome
  pendingFallback : s'.pendingFallback = none
  timersSpawned : s'.timersSpawned = s.timersSpawned
  effects : ∃ before between replies, (∀ e ∈ before, e.Silent) ∧ (∀ e ∈ between, e.Silent) ∧
    (∀ e ∈ replies, Answers s proposal e) ∧
    effects = [.call (.decideViewChange s proposal)] ++ before ++
      [.publish .viewChange (s.changeOf proposal)] ++
      s.pendingFallback.toList.map .abortFallback ++ [.call .newFastPaxos] ++ between ++ replies ++
        [.call .newFastPaxos]

namespace ServiceState

variable (s : ServiceState)

theorem appliedTo_sameBut (proposal : List Endpoint) : SameBut s.cancelFailureDetectors.1
    (s.appliedTo proposal).1 :=
  (applyNodes_steps proposal _).sameBut

omit [Xxh64] in
theorem memberlist_eq : s.memberlist = s.view.ringZero.ordered := by
  rw [memberlist, MembershipView.getRing_zero]
  rfl

/-- The actor right after the loop: settled on the new view, consensus not yet replaced. -/
def settledOn (proposal : List Endpoint) : ServiceState :=
  { (s.appliedTo proposal).1.configurationId.1 with
    cutDetector := (s.appliedTo proposal).1.cutDetector.clear
    lifecycle := LifecycleState.running }

omit [Xxh64] in
/-- What comes next sees one state only. -/
theorem Outcome.andThen_const (outcome : Outcome) (next : ServiceState → Outcome) :
    outcome.andThen next = outcome.andThen fun _ => next outcome.1 :=
  rfl

theorem decideViewChange_eq (env : Environment) (proposal : List Endpoint) :
    s.decideViewChange env proposal =
      Outcome.andThen (s, [.call (.decideViewChange s proposal)]) fun s =>
      s.cancelFailureDetectors.andThen fun _ =>
      Outcome.andThen (s.settledOn proposal, [.publish .viewChange (s.changeOf proposal)])
        fun state =>
      state.reinstateFastPaxos.andThen fun state =>
      Outcome.andThen (state, if state.broadcaster then
        [.setMembership (s.changeOf proposal).membership] else []) fun state =>
      Outcome.andThen
        (if state.view.isHostPresent state.myAddr then state.rebuildDetectors
          else (state, [.publish .kicked (s.changeOf proposal)])) fun state =>
      state.respondToJoiners env proposal (s.changeOf proposal).membership := by
  unfold decideViewChange
  -- Past the first stage the state is the one without its detectors.
  refine congrArg (Outcome.andThen _) (funext fun s => ?_)
  exact Outcome.andThen_const _ _

theorem reinstateFastPaxos_effects :
    s.reinstateFastPaxos.2 =
      s.pendingFallback.toList.map .abortFallback ++ [.call .newFastPaxos] :=
  rfl

theorem reinstateFastPaxos_state : ∃ fp, s.reinstateFastPaxos.1 =
    { s with
      view := s.view.currentConfigurationId.1
      pendingFallback := none
      fastPaxos := some fp } :=
  ⟨_, rfl⟩

/-- The answer that `respond_to_joiners` sends on the replies parked for the proposal. -/
theorem respondToJoiners_answers (env : Environment) (proposal membership : List Endpoint) :
    ∃ response : JoinResponse,
      response.statusCode = JoinStatusCode.safeToJoin.toInt32 ∧
      response.configurationId = s.view.currentConfigurationId.2 ∧
      response.endpoints = membership ∧
      response.identifiers = s.view.currentConfigurationId.1.currentIdentifiers ∧
      s.respondToJoiners env proposal membership =
        answerParked (joinReply response) proposal s.configurationId.1 :=
  ⟨_, rfl, rfl, rfl, rfl, rfl⟩

theorem changeOf_membership (proposal : List Endpoint) :
    (s.changeOf proposal).membership = (s.appliedTo proposal).1.view.ringZero.ordered := by
  have hrings := (MembershipView.Refreshes.current (s.appliedTo proposal).1.view).shows.rings
  rw [changeOf, memberlist_eq]
  exact congrArg Ring.ordered (MembershipView.ringZero_eq hrings)

theorem currentIdentifiers_congr {v w : MembershipView} (h : v.Shows w) :
    w.currentIdentifiers = v.currentIdentifiers :=
  MembershipView.currentIdentifiers_eq h.identifiers

/-- The last stages of a decision, from a state that is calm after the instance was replaced. -/
theorem answers_after {settled told : ServiceState} {fp : FastPaxos} (env : Environment)
    (proposal membership : List Endpoint)
    (htold : Quiet
      { settled with
        view := settled.view.currentConfigurationId.1
        pendingFallback := none
        fastPaxos := some fp } told) :
    ∃ last : ServiceState,
      ((told.respondToJoiners env proposal membership).1.reinstateFastPaxos).1 = last ∧
      last.settings = settled.settings ∧ last.myAddr = settled.myAddr ∧
      settled.view.Refreshes last.view ∧ last.cutDetector = settled.cutDetector ∧
      last.metadata = settled.metadata ∧
      (∀ node, last.joinersToRespondTo.lookup node =
        if node ∈ proposal then none else settled.joinersToRespondTo.lookup node) ∧
      last.joinerUuid = settled.joinerUuid ∧ last.joinerMetadata = settled.joinerMetadata ∧
      last.lifecycle = settled.lifecycle ∧ last.fastPaxos.isSome ∧
      last.pendingFallback = none ∧ last.timersSpawned = settled.timersSpawned ∧
      (told.respondToJoiners env proposal membership).1.pendingFallback = none := by
  rcases told.respondToJoiners_answers env proposal membership with
    ⟨response, _, _, _, _, hrespond⟩
  -- Answering takes the entries out, and nothing else.
  rcases answerParked_state (joinReply response) proposal told.configurationId.1 with
    ⟨hanswered, hlookup⟩
  rcases ((told.respondToJoiners env proposal membership).1).reinstateFastPaxos_state with
    ⟨fp', hlast⟩
  have hview : settled.view.Refreshes told.view :=
    (MembershipView.Refreshes.current _).trans htold.view
  refine ⟨_, rfl, ?_⟩
  rw [hlast, hrespond, hanswered]
  refine ⟨htold.settings, htold.myAddr, ?_, htold.cutDetector, htold.metadata, ?_,
    htold.joinerUuid, htold.joinerMetadata, htold.lifecycle, rfl, rfl, htold.timersSpawned,
    htold.pendingFallback⟩
  · exact (hview.trans (.current _)).trans (.current _)
  · intro node
    have hparked : told.configurationId.1.joinersToRespondTo = settled.joinersToRespondTo :=
      htold.joinersToRespondTo
    rw [hlookup node, hparked]

/-- A decision, and the replacement of the instance after it, in full. -/
theorem decideViewChange_decided (env : Environment) (proposal : List Endpoint) :
    Decided s proposal ((s.decideViewChange env proposal).andThen reinstateFastPaxos).1
      ((s.decideViewChange env proposal).andThen reinstateFastPaxos).2 := by
  have hbut := s.appliedTo_sameBut proposal
  rcases (s.settledOn proposal).reinstateFastPaxos_state with ⟨fp, hreplaced⟩
  -- The actor between the replacement of its instance and the answers.
  have htold : Calm (s.settledOn proposal).reinstateFastPaxos.1
        (if (s.settledOn proposal).reinstateFastPaxos.1.view.isHostPresent
            (s.settledOn proposal).reinstateFastPaxos.1.myAddr then
          (s.settledOn proposal).reinstateFastPaxos.1.rebuildDetectors
        else ((s.settledOn proposal).reinstateFastPaxos.1,
          [.publish .kicked (s.changeOf proposal)])) := by
    split
    · exact calm_rebuildDetectors _
    · refine .stay ?_
      intro e he
      cases List.mem_singleton.1 he
      trivial
  rw [decideViewChange_eq]
  simp only [Outcome.andThen_state, Outcome.andThen_effects]
  generalize (if (s.settledOn proposal).reinstateFastPaxos.1.view.isHostPresent
      (s.settledOn proposal).reinstateFastPaxos.1.myAddr then
    (s.settledOn proposal).reinstateFastPaxos.1.rebuildDetectors
    else ((s.settledOn proposal).reinstateFastPaxos.1,
      [.publish .kicked (s.changeOf proposal)])) = told at htold ⊢
  have hquiet := htold.quiet
  rw [hreplaced] at hquiet
  rcases answers_after env proposal (s.changeOf proposal).membership hquiet with
    ⟨last, hlast, hsettings, hmyAddr, hview, hdetector, hmetadata, hparked, huuid, hjoinerMetadata,
      hlifecycle, hinstance, hpending, htimers, hnoTimer⟩
  rcases told.1.respondToJoiners_answers env proposal (s.changeOf proposal).membership with
    ⟨response, hstatus, hconfiguration, hendpoints, hidentifiers, hrespond⟩
  have hrefresh : (s.appliedTo proposal).1.view.Refreshes told.1.view :=
    ((MembershipView.Refreshes.current _).trans (.current _)).trans hquiet.view
  have hsettled : (s.settledOn proposal).joinersToRespondTo = s.joinersToRespondTo :=
    hbut.joinersToRespondTo
  rw [hlast]
  refine ⟨hsettings.trans hbut.settings, hmyAddr.trans hbut.myAddr,
    (MembershipView.Refreshes.current _).trans hview,
    hdetector.trans (congrArg MultiNodeCutDetector.clear hbut.cutDetector), hmetadata, ?_, huuid,
    hjoinerMetadata, hlifecycle, hinstance, hpending, htimers.trans hbut.timersSpawned, ?_⟩
  · intro node
    rw [hparked node, hsettled]
  · refine ⟨s.cancelFailureDetectors.2,
      (if (s.settledOn proposal).reinstateFastPaxos.1.broadcaster then
        [.setMembership (s.changeOf proposal).membership] else []) ++ told.2,
      (told.1.respondToJoiners env proposal (s.changeOf proposal).membership).2,
      s.calm_cancelFailureDetectors.silent, ?_, ?_, ?_⟩
    · intro e he
      rcases List.mem_append.1 he with hset | hrebuild
      · split at hset
        · cases List.mem_singleton.1 hset
          trivial
        · cases hset
      · exact htold.silent e hrebuild
    · intro e he
      rw [hrespond, mem_answerParked] at he
      rcases he with ⟨node, hnode, parked, hlookup, id, hid, rfl⟩
      have hparked' : told.1.configurationId.1.joinersToRespondTo = s.joinersToRespondTo :=
        hquiet.joinersToRespondTo.trans hsettled
      rw [hparked'] at hlookup
      refine ⟨node, hnode, parked, hlookup, id, hid, response, rfl, hstatus, ?_, ?_, ?_⟩
      · rw [hconfiguration, hrefresh.shows.configurationId]
      · rw [hendpoints, changeOf_membership]
      · rw [hidentifiers, currentIdentifiers_congr (hrefresh.trans (.current _)).shows]
    · have htimer : (s.settledOn proposal).pendingFallback = s.pendingFallback :=
        hbut.pendingFallback
      rw [reinstateFastPaxos_effects, reinstateFastPaxos_effects, hnoTimer, htimer]
      simp

end ServiceState

end Rapid
