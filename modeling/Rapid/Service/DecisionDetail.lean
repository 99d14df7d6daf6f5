import Rapid.Service.Pieces

/-!
# DecisionDetail — a decision with all its effects

`Decided` leaves open what the silent effects of a decision are. Here they are listed: the tasks
that are aborted and spawned, the recipients that the broadcaster is given and the replies to the
joiners. What the loop over the proposal does not touch is listed as well.
-/

namespace Rapid

open Foundations

variable [Xxh64]

/-! ## What no decision touches -/

/-- The alert queue and the attached collaborators are as before. -/
structure Wired (s t : ServiceState) : Prop where
  settings : t.settings = s.settings
  myAddr : t.myAddr = s.myAddr
  sendQueue : t.sendQueue = s.sendQueue
  lastEnqueueAt : t.lastEnqueueAt = s.lastEnqueueAt
  broadcaster : t.broadcaster = s.broadcaster
  proposalTx : t.proposalTx = s.proposalTx
  fdFactory : t.fdFactory = s.fdFactory
  consensusClient : t.consensusClient = s.consensusClient

section Wired

omit [Xxh64]

variable {s t u : ServiceState}

theorem Wired.refl (s : ServiceState) : Wired s s :=
  ⟨rfl, rfl, rfl, rfl, rfl, rfl, rfl, rfl⟩

theorem Wired.trans (h : Wired s t) (h' : Wired t u) : Wired s u :=
  ⟨h'.settings.trans h.settings, h'.myAddr.trans h.myAddr, h'.sendQueue.trans h.sendQueue,
    h'.lastEnqueueAt.trans h.lastEnqueueAt, h'.broadcaster.trans h.broadcaster,
    h'.proposalTx.trans h.proposalTx, h'.fdFactory.trans h.fdFactory,
    h'.consensusClient.trans h.consensusClient⟩

theorem SameBut.wired (h : SameBut s t) : Wired s t := by
  rw [SameBut] at h
  rw [h]
  exact ⟨rfl, rfl, rfl, rfl, rfl, rfl, rfl, rfl⟩

end Wired

namespace ServiceState

variable (s : ServiceState) (env : Environment) (proposal : List Endpoint)

theorem wired_spawnDetectors : Wired s s.spawnDetectors.1 := by
  unfold spawnDetectors
  split
  · dsimp only
    split
    · exact ⟨rfl, rfl, rfl, rfl, rfl, rfl, rfl, rfl⟩
    · exact ⟨rfl, rfl, rfl, rfl, rfl, rfl, rfl, rfl⟩
  · exact .refl s

theorem wired_rebuildDetectors : Wired s s.rebuildDetectors.1 := by
  have hcancelled : Wired s s.cancelFailureDetectors.1 := ⟨rfl, rfl, rfl, rfl, rfl, rfl, rfl, rfl⟩
  exact hcancelled.trans (wired_spawnDetectors _)

/-! ## The stages of a decision -/

/-- The actor on its new view, with a new consensus instance. -/
def replacedOn : ServiceState :=
  (s.settledOn proposal).reinstateFastPaxos.1

/-- A member monitors its subjects in the new view; a node that was removed is told so. -/
def monitoredOn : Outcome :=
  if (s.replacedOn proposal).view.isHostPresent (s.replacedOn proposal).myAddr then
    (s.replacedOn proposal).rebuildDetectors
  else (s.replacedOn proposal, [.publish .kicked (s.changeOf proposal)])

/-- The joiners of the proposal are answered. -/
def answeredOn : Outcome :=
  (s.monitoredOn proposal).1.respondToJoiners env proposal (s.changeOf proposal).membership

theorem wired_replacedOn : Wired s (s.replacedOn proposal) := by
  have hcancelled : Wired s s.cancelFailureDetectors.1 := ⟨rfl, rfl, rfl, rfl, rfl, rfl, rfl, rfl⟩
  have happlied := hcancelled.trans (s.appliedTo_sameBut proposal).wired
  exact ⟨happlied.settings, happlied.myAddr, happlied.sendQueue, happlied.lastEnqueueAt,
    happlied.broadcaster, happlied.proposalTx, happlied.fdFactory, happlied.consensusClient⟩

/-- The detectors of the old view are gone before the new ones start. -/
theorem tasks_replacedOn : (s.replacedOn proposal).failureDetectorTasks = [] := by
  have hbut := s.appliedTo_sameBut proposal
  have happlied : (s.appliedTo proposal).1.failureDetectorTasks = [] := by
    rw [SameBut] at hbut
    rw [hbut]
    rfl
  exact happlied

theorem clean_replacedOn : (s.replacedOn proposal).view.currentConfigurationId.1 =
    (s.replacedOn proposal).view :=
  congrArg Prod.fst (MembershipView.currentConfigurationId_idem (v := (s.settledOn proposal).view))

theorem quiet_monitoredOn : Quiet (s.replacedOn proposal) (s.monitoredOn proposal).1 := by
  unfold monitoredOn
  split
  · exact (calm_rebuildDetectors _).quiet
  · exact .refl _

theorem wired_monitoredOn : Wired s (s.monitoredOn proposal).1 := by
  refine (s.wired_replacedOn proposal).trans ?_
  unfold monitoredOn
  split
  · exact wired_rebuildDetectors _
  · exact .refl _

theorem view_monitoredOn : (s.monitoredOn proposal).1.view = (s.replacedOn proposal).view :=
  (s.quiet_monitoredOn proposal).view.of_clean (s.clean_replacedOn proposal)

/-- Answering takes entries out of the table of parked replies and refreshes the configuration id. -/
theorem answeredOn_state : (s.answeredOn env proposal).1 =
    { (s.monitoredOn proposal).1 with
      joinersToRespondTo := (s.answeredOn env proposal).1.joinersToRespondTo } := by
  rcases (s.monitoredOn proposal).1.respondToJoiners_answers env proposal
    (s.changeOf proposal).membership with ⟨response, _, _, _, _, hrespond⟩
  have hclean : (s.monitoredOn proposal).1.configurationId.1 = (s.monitoredOn proposal).1 := by
    rw [configurationId, view_monitoredOn, clean_replacedOn, ← view_monitoredOn]
  have hanswered := (answerParked_state (joinReply response) proposal
    (s.monitoredOn proposal).1.configurationId.1).1
  rw [hclean] at hanswered hrespond
  unfold answeredOn
  rw [hrespond]
  exact hanswered

/-- The state after a decision. -/
theorem decideAndReplace_state : (s.decideAndReplace env proposal).1 =
    { (s.monitoredOn proposal).1 with
      joinersToRespondTo := (s.answeredOn env proposal).1.joinersToRespondTo
      fastPaxos := (s.decideAndReplace env proposal).1.fastPaxos
      pendingFallback := none } := by
  have hlast : (s.decideAndReplace env proposal).1 = (s.answeredOn env proposal).1.reinstateFastPaxos.1 := by
    unfold decideAndReplace
    rw [decideViewChange_eq]
    rfl
  rcases (s.answeredOn env proposal).1.reinstateFastPaxos_state with ⟨fp, hfp⟩
  have hview : (s.answeredOn env proposal).1.view.currentConfigurationId.1 =
      (s.monitoredOn proposal).1.view := by
    rw [answeredOn_state, view_monitoredOn]
    exact s.clean_replacedOn proposal
  rw [hlast, hfp, hview]
  rw [answeredOn_state]

/-- The effects of a decision, in their order. -/
theorem decideAndReplace_effects : (s.decideAndReplace env proposal).2 =
    [.call (.decideViewChange s proposal)] ++ s.failureDetectorTasks.map .abortDetector ++
      [.publish .viewChange (s.changeOf proposal)] ++
      s.pendingFallback.toList.map .abortFallback ++ [.call .newFastPaxos] ++
      (if s.broadcaster then [.setMembership (s.changeOf proposal).membership] else []) ++
      (s.monitoredOn proposal).2 ++ (s.answeredOn env proposal).2 ++ [.call .newFastPaxos] := by
  have hpending : (s.settledOn proposal).pendingFallback = s.pendingFallback :=
    (s.appliedTo_sameBut proposal).pendingFallback
  have hbroadcaster : (s.settledOn proposal).reinstateFastPaxos.1.broadcaster = s.broadcaster :=
    (s.wired_replacedOn proposal).broadcaster
  have hnone : (s.answeredOn env proposal).1.pendingFallback = none := by
    rw [answeredOn_state]
    exact (s.quiet_monitoredOn proposal).pendingFallback
  have hlast : (s.answeredOn env proposal).1.reinstateFastPaxos.2 = [.call .newFastPaxos] := by
    rw [reinstateFastPaxos_effects, hnone]
    rfl
  have heffects : (s.decideAndReplace env proposal).2 =
      ([.call (.decideViewChange s proposal)] ++ (s.failureDetectorTasks.map Effect.abortDetector ++
        ([.publish .viewChange (s.changeOf proposal)] ++
          ((s.settledOn proposal).reinstateFastPaxos.2 ++
            ((if (s.settledOn proposal).reinstateFastPaxos.1.broadcaster then
                [.setMembership (s.changeOf proposal).membership] else []) ++
              ((s.monitoredOn proposal).2 ++ (s.answeredOn env proposal).2)))))) ++
        (s.answeredOn env proposal).1.reinstateFastPaxos.2 := by
    unfold decideAndReplace
    rw [decideViewChange_eq]
    rfl
  rw [heffects, hlast, reinstateFastPaxos_effects, hpending, hbroadcaster]
  simp only [List.append_assoc]

theorem wired_decide : Wired s (s.decideAndReplace env proposal).1 := by
  have hmonitored := s.wired_monitoredOn proposal
  rw [decideAndReplace_state]
  exact ⟨hmonitored.settings, hmonitored.myAddr, hmonitored.sendQueue, hmonitored.lastEnqueueAt,
    hmonitored.broadcaster, hmonitored.proposalTx, hmonitored.fdFactory,
    hmonitored.consensusClient⟩

theorem view_decide : (s.decideAndReplace env proposal).1.view = (s.replacedOn proposal).view := by
  rw [decideAndReplace_state]
  exact s.view_monitoredOn proposal

/-- A new instance is for the configuration of the view. -/
theorem fastPaxos_reinstated : s.reinstateFastPaxos.1.fastPaxos =
    some (FastPaxos.new s.myAddr s.reinstateFastPaxos.1.view.currentConfigurationId.2
      s.view.currentConfigurationId.1.membershipSize s.settings.paxosFallbackBaseDelay) := by
  have hid : s.reinstateFastPaxos.1.view.currentConfigurationId.2 = s.view.currentConfigurationId.2 :=
    congrArg Prod.snd MembershipView.currentConfigurationId_idem
  rw [hid]
  rfl

/-- The instance after a decision is fresh, and for the configuration of the view. -/
theorem fastPaxos_decide : ∃ size, (s.decideAndReplace env proposal).1.fastPaxos =
    some (FastPaxos.new s.myAddr
      (s.decideAndReplace env proposal).1.view.currentConfigurationId.2 size
      s.settings.paxosFallbackBaseDelay) := by
  have hlast : (s.decideAndReplace env proposal).1 = (s.answeredOn env proposal).1.reinstateFastPaxos.1 := by
    unfold decideAndReplace
    rw [decideViewChange_eq]
    rfl
  have hmonitored := s.wired_monitoredOn proposal
  have haddr : (s.answeredOn env proposal).1.myAddr = s.myAddr := by
    rw [answeredOn_state]
    exact hmonitored.myAddr
  have hsettings : (s.answeredOn env proposal).1.settings = s.settings := by
    rw [answeredOn_state]
    exact hmonitored.settings
  refine ⟨(s.answeredOn env proposal).1.view.currentConfigurationId.1.membershipSize, ?_⟩
  rw [hlast, ← haddr, ← hsettings]
  exact fastPaxos_reinstated _

end ServiceState

/-! ## Booting -/

/-- The actor that the builder leaves: nothing is queued and all collaborators are attached. -/
structure Equipped (s : ServiceState) : Prop where
  sendQueue : s.sendQueue = []
  lastEnqueueAt : s.lastEnqueueAt = none
  broadcaster : s.broadcaster = true
  fdFactory : s.fdFactory = true
  consensusClient : s.consensusClient = true
  fastPaxos : ∃ size, s.fastPaxos = some (FastPaxos.new s.myAddr s.view.currentConfigurationId.2 size
    s.settings.paxosFallbackBaseDelay)

theorem Equipped.rebuild {s : ServiceState} (h : Equipped s) : Equipped s.rebuildDetectors.1 := by
  have hwired := s.wired_rebuildDetectors
  have hquiet := (ServiceState.calm_rebuildDetectors s).quiet
  rcases h.fastPaxos with ⟨size, hfp⟩
  refine ⟨hwired.sendQueue.trans h.sendQueue, hwired.lastEnqueueAt.trans h.lastEnqueueAt,
    hwired.broadcaster.trans h.broadcaster, hwired.fdFactory.trans h.fdFactory,
    hwired.consensusClient.trans h.consensusClient, size, ?_⟩
  rw [hquiet.view.shows.configurationId, hwired.myAddr, hwired.settings, hquiet.fastPaxos]
  exact hfp

theorem finishCluster_equipped (listen : Endpoint) (settings : Settings) (view : MembershipView)
    (cutDetector : MultiNodeCutDetector) (metadata : MetadataManager) :
    Equipped (ServiceState.finishCluster listen settings view cutDetector metadata).1 := by
  exact Equipped.rebuild
    ⟨rfl, rfl, rfl, rfl, rfl, _, ServiceState.fastPaxos_reinstated _⟩

theorem Boots.equipped {outcome : Outcome} (h : Boots outcome) : Equipped outcome.1 := by
  rcases h with ⟨settings, listen, own, nodeId, hstart⟩ | ⟨settings, listen, own, response, hjoin⟩
  · rcases ServiceState.built_of_ok hstart with ⟨view, detector, _, _, rfl⟩
    exact finishCluster_equipped _ _ _ _ _
  · rcases ServiceState.built_of_ok hjoin with ⟨view, detector, _, _, rfl⟩
    exact finishCluster_equipped _ _ _ _ _

end Rapid
