import Rapid.Service.DecisionDetail
import Rapid.Service.JoinRequests
import Rapid.Foundations.Bag

/-!
# Replies — every reply channel is answered once or its joiner waits

A command with a reply channel is answered while it is handled, with one exception: a joiner is
parked until a decision lets it in. Whatever is decided in between, the replies sent and the
channels parked are together exactly the channels of the commands handled.
-/

namespace Rapid

open Foundations

section Replies

variable [Xxh64]

/-! ## Accounts -/

def Effect.answered? : Effect → Option ReplyId
  | .reply id _ => some id
  | _ => none

/-- The reply channels that are answered, in order. -/
def answered (effects : List Effect) : List ReplyId :=
  effects.filterMap Effect.answered?

/-- The reply channels of the joiners that wait. -/
def ServiceState.parked (s : ServiceState) : Multiset ReplyId :=
  bag s.joinersToRespondTo

omit [Xxh64] in
@[simp] theorem answered_append (effects more : List Effect) :
    answered (effects ++ more) = answered effects ++ answered more :=
  List.filterMap_append

omit [Xxh64] in
theorem answered_eq_nil {effects : List Effect} (h : ∀ e ∈ effects, e.answered? = none) :
    answered effects = [] :=
  List.filterMap_eq_nil_iff.2 h

/-- The channels in `owed` came in, and every channel was answered or is still parked. -/
def Accounted (owed : Multiset ReplyId) (s : ServiceState) (outcome : Outcome) : Prop :=
  (answered outcome.2 : Multiset ReplyId) + outcome.1.parked = s.parked + owed

variable {s t : ServiceState} {owed : Multiset ReplyId} {env : Environment}

namespace Accounted

omit [Xxh64]

/-- Nobody is answered and nobody is parked. -/
theorem idle {effects : List Effect} (hparked : t.joinersToRespondTo = s.joinersToRespondTo)
    (heffects : answered effects = []) : Accounted 0 s (t, effects) := by
  unfold Accounted ServiceState.parked
  rw [hparked, heffects, Multiset.coe_nil, zero_add, add_zero]

/-- A first handler that answers nobody for good. -/
theorem andThen {outcome : Outcome} {next : ServiceState → Outcome} (h : Accounted 0 s outcome)
    (hnext : Accounted owed outcome.1 (next outcome.1)) : Accounted owed s (outcome.andThen next) := by
  unfold Accounted at h hnext ⊢
  calc (answered (outcome.andThen next).2 : Multiset ReplyId) + (outcome.andThen next).1.parked
      = answered outcome.2 + (answered (next outcome.1).2 + (next outcome.1).1.parked) := by
        rw [Outcome.andThen_effects, Outcome.andThen_state, answered_append, ← Multiset.coe_add,
          add_assoc]
    _ = answered outcome.2 + outcome.1.parked + owed := by rw [hnext, add_assoc]
    _ = s.parked + owed := by rw [h, add_zero]

/-- The command is answered at once. -/
theorem answer {effects : List Effect} (h : Accounted 0 s (t, effects)) (id : ReplyId) (reply : Reply) :
    Accounted {id} s (t, effects ++ [.reply id reply]) := by
  have hlast : Accounted {id} t (t, [.reply id reply]) := add_comm _ _
  have hboth : Accounted {id} s (Outcome.andThen (t, effects) fun t => (t, [.reply id reply])) :=
    h.andThen hlast
  exact hboth

theorem reply (s : ServiceState) (id : ReplyId) (reply : Reply) :
    Accounted {id} s (s, [.reply id reply]) := by
  have hidle : Accounted 0 s (s, []) := .idle rfl rfl
  exact hidle.answer id reply

end Accounted

/-! ## Handlers without a reply channel -/

namespace ServiceState

omit [Xxh64] in
theorem answered_cancelFailureDetectors (s : ServiceState) :
    answered s.cancelFailureDetectors.2 = [] := by
  refine answered_eq_nil fun e he => ?_
  rcases List.mem_map.1 he with ⟨task, _, rfl⟩
  rfl

theorem accounted_spawnDetectors (s : ServiceState) : Accounted 0 s s.spawnDetectors := by
  unfold spawnDetectors
  split
  · dsimp only
    split
    · exact .idle rfl rfl
    · refine .idle rfl (answered_eq_nil fun e he => ?_)
      rcases List.mem_map.1 he with ⟨task, _, rfl⟩
      rfl
  · exact .idle rfl rfl

theorem accounted_rebuildDetectors (s : ServiceState) : Accounted 0 s s.rebuildDetectors := by
  have hcancelled : Accounted 0 s s.cancelFailureDetectors :=
    .idle rfl (answered_cancelFailureDetectors s)
  exact hcancelled.andThen (accounted_spawnDetectors _)

theorem accounted_monitoredOn (s : ServiceState) (proposal : List Endpoint) :
    Accounted 0 (s.replacedOn proposal) (s.monitoredOn proposal) := by
  unfold monitoredOn
  split
  · exact accounted_rebuildDetectors _
  · exact .idle rfl rfl

omit [Xxh64] in
/-- Whoever waits for a node of the proposal is answered and waits no more. -/
theorem accounted_answerParked (reply : Reply) (proposal : List Endpoint) :
    ∀ s : ServiceState, Accounted 0 s (answerParked reply proposal s) := by
  induction proposal with
  | nil => exact fun s => .idle rfl rfl
  | cons node nodes ih =>
      intro s
      rw [answerParked]
      cases hlookup : s.joinersToRespondTo.lookup node with
      | none => exact ih s
      | some waiting =>
          have herased := bag_erase hlookup
          have hrest := ih { s with joinersToRespondTo := s.joinersToRespondTo.erase node }
          have hreplies : answered (waiting.map (Effect.reply · reply)) = waiting := by
            unfold answered
            rw [List.filterMap_map]
            exact List.filterMap_some
          unfold Accounted parked at hrest ⊢
          dsimp only at hrest ⊢
          rw [answered_append, hreplies, ← Multiset.coe_add, add_assoc, hrest, ← herased,
            add_zero, add_zero, add_comm]

theorem accounted_answeredOn (s : ServiceState) (env : Environment) (proposal : List Endpoint) :
    Accounted 0 (s.monitoredOn proposal).1 (s.answeredOn env proposal) := by
  rcases (s.monitoredOn proposal).1.respondToJoiners_answers env proposal
    (s.changeOf proposal).membership with ⟨response, _, _, _, _, hrespond⟩
  unfold answeredOn
  rw [hrespond]
  exact accounted_answerParked _ _ _

/-- A decision answers joiners that it takes off the list, and nobody else. -/
theorem accounted_decide (s : ServiceState) (env : Environment) (proposal : List Endpoint) :
    Accounted 0 s (s.decideAndReplace env proposal) := by
  have habort : answered (s.pendingFallback.toList.map Effect.abortFallback) = [] := by
    refine answered_eq_nil fun e he => ?_
    rcases List.mem_map.1 he with ⟨timer, _, rfl⟩
    rfl
  have hrecipients : answered (if s.broadcaster then
      [Effect.setMembership (s.changeOf proposal).membership] else []) = [] := by
    split
    · rfl
    · rfl
  have hreplaced : (s.replacedOn proposal).joinersToRespondTo = s.joinersToRespondTo :=
    (s.appliedTo_sameBut proposal).joinersToRespondTo
  have hboth : Accounted 0 (s.replacedOn proposal)
      ((s.monitoredOn proposal).andThen fun _ => s.answeredOn env proposal) :=
    (accounted_monitoredOn s proposal).andThen (s.accounted_answeredOn env proposal)
  have heffects : answered (s.decideAndReplace env proposal).2 =
      answered (s.monitoredOn proposal).2 ++ answered (s.answeredOn env proposal).2 := by
    have hdetectors : answered (s.failureDetectorTasks.map Effect.abortDetector) = [] :=
      answered_cancelFailureDetectors s
    rw [decideAndReplace_effects]
    simp only [answered_append, hdetectors, habort, hrecipients]
    exact List.append_nil _
  have hstate : (s.decideAndReplace env proposal).1.joinersToRespondTo =
      (s.answeredOn env proposal).1.joinersToRespondTo := by
    rw [decideAndReplace_state]
  unfold Accounted parked at hboth ⊢
  rw [Outcome.andThen_effects, answered_append, Outcome.andThen_state, hreplaced] at hboth
  rw [heffects, hstate]
  exact hboth

/-- Whatever an instance puts out. -/
theorem accounted_dispatch (env : Environment) (outs : List FastOutgoing) :
    ∀ s : ServiceState, Accounted 0 s (dispatch env outs s) := by
  induction outs with
  | nil => exact fun s => .idle rfl rfl
  | cons out outs ih =>
      intro s
      have hfirst : Accounted 0 s (dispatchOne env out s) := by
        cases out with
        | broadcast request =>
            refine .idle rfl ?_
            split
            · rfl
            · rfl
        | unicast target request =>
            refine .idle rfl ?_
            split
            · rfl
            · rfl
        | scheduleClassicFallback delay =>
            refine .idle rfl (answered_eq_nil fun e he => ?_)
            rcases List.mem_append.1 he with hold | hnew
            · rcases List.mem_map.1 hold with ⟨timer, _, rfl⟩
              rfl
            · cases List.mem_singleton.1 hnew
              rfl
        | decision proposal => exact s.accounted_decide env proposal
      exact hfirst.andThen (ih _)

theorem accounted_propose (s : ServiceState) (env : Environment) (proposal : List Endpoint) :
    Accounted 0 s (s.propose env proposal) := by
  unfold propose
  split
  · exact .idle rfl rfl
  · rename_i fp _
    have hvoted : Accounted 0 s ({ s with fastPaxos := some (fp.propose env.jitter proposal).1 },
        [.call (.propose proposal)]) := .idle rfl rfl
    exact hvoted.andThen (accounted_dispatch env _ _)

theorem accounted_startClassic (s : ServiceState) (env : Environment) :
    Accounted 0 s (s.startClassic env) := by
  unfold startClassic
  split
  · exact .idle rfl rfl
  · rename_i fp _
    have hstarted : Accounted 0 s ({ s with fastPaxos := some fp.startClassicRound.1 },
        [.call .startClassicRound]) := .idle rfl rfl
    exact hstarted.andThen (accounted_dispatch env _ _)

theorem accounted_consensus (s : ServiceState) (env : Environment) (request : RapidRequest) :
    Accounted 0 s (s.handleConsensusRequest env request) := by
  unfold handleConsensusRequest
  split
  · exact .idle rfl rfl
  · exact accounted_dispatch env _ _

theorem accounted_handleBatchedAlerts (s : ServiceState) (env : Environment)
    (msg : BatchedAlertMessage) : Accounted 0 s (s.handleBatchedAlerts env msg).1 := by
  refine .idle ?_ (answered_eq_nil fun e he => ?_)
  · rw [handleBatchedAlerts_frame env s msg]
  · unfold handleBatchedAlerts at he
    dsimp only at he
    split at he
    · cases he
    · split at he
      · cases he
      · dsimp only at he
        split at he
        · cases List.mem_singleton.1 he
          rfl
        · cases he

omit [Xxh64] in
theorem accounted_handleTick (s : ServiceState) (now : Instant) : Accounted 0 s (s.handleTick now) := by
  unfold handleTick
  split
  · exact .idle rfl rfl
  · split
    · exact .idle rfl rfl
    · split
      · exact .idle rfl rfl
      · refine .idle rfl ?_
        split
        · rfl
        · rfl

/-! ## Commands -/

/-- A joiner of this configuration is parked, another one is answered. -/
theorem accounted_handleJoin (s : ServiceState) (env : Environment) (msg : JoinMessage)
    (reply : ReplyId) : Accounted {reply} s (s.handleJoin env msg reply) := by
  unfold handleJoin
  dsimp only
  split
  · exact (zero_add _).trans (bag_push _ _ _)
  · have hquiet := quiet_buildConfigMismatchResponse s.configurationId.1 env.metadataOrder
      (msg.sender.getD default) (msg.nodeId.getD default)
    have hidle : Accounted 0 s ((s.configurationId.1.buildConfigMismatchResponse env.metadataOrder
        (msg.sender.getD default) (msg.nodeId.getD default)).1, []) :=
      .idle hquiet.joinersToRespondTo rfl
    exact hidle.answer reply _

theorem accounted_handleRequest (s : ServiceState) (env : Environment) (request : RapidRequest)
    (reply : ReplyId) : Accounted {reply} s (s.handleRequest env request reply) := by
  have hconsensus : ∀ content : RapidRequest.Content,
      Accounted {reply} s ((s.handleConsensusRequest env ⟨some content⟩).andThen fun t =>
        (t, [.reply reply emptyReply])) :=
    fun content => (s.accounted_consensus env ⟨some content⟩).answer reply _
  obtain ⟨content⟩ := request
  unfold handleRequest
  split
  · exact .reply s reply _
  · cases content with
    | none => exact .reply s reply _
    | some content =>
        cases content with
        | preJoinMessage msg =>
            have hidle : Accounted 0 s ((s.handlePreJoin msg).1, []) := .idle rfl rfl
            exact hidle.answer reply _
        | joinMessage msg => exact s.accounted_handleJoin env msg reply
        | batchedAlertMessage msg =>
            have hproposed : Accounted 0 s ((s.handleBatchedAlerts env msg).1.andThen fun t =>
                if (s.handleBatchedAlerts env msg).2 = [] then (t, [])
                else t.propose env (s.handleBatchedAlerts env msg).2) := by
              refine (s.accounted_handleBatchedAlerts env msg).andThen ?_
              split
              · exact .idle rfl rfl
              · exact accounted_propose _ env _
            exact hproposed.answer reply _
        | probeMessage msg => exact .reply s reply _
        | leaveMessage msg =>
            dsimp only
            split
            · exact .reply s reply _
            · have hidle : ∀ ev, Accounted 0 s (s.configurationId.1.handleEdgeFailure env.now ev, []) :=
                fun ev => .idle (s.configurationId.1.quiet_handleEdgeFailure env.now ev).joinersToRespondTo
                  rfl
              exact (hidle _).answer reply _
        | fastRoundPhase2bMessage msg => exact hconsensus (.fastRoundPhase2bMessage msg)
        | phase1aMessage msg => exact hconsensus (.phase1aMessage msg)
        | phase1bMessage msg => exact hconsensus (.phase1bMessage msg)
        | phase2aMessage msg => exact hconsensus (.phase2aMessage msg)
        | phase2bMessage msg => exact hconsensus (.phase2bMessage msg)

/-- Every command settles the account of its channel. -/
theorem accounted_handleCommand (s : ServiceState) (env : Environment) (cmd : ServiceCommand) :
    Accounted cmd.reply?.toList s (s.handleCommand env cmd).1 := by
  cases cmd with
  | request request reply => exact s.accounted_handleRequest env request reply
  | memberlist reply => exact .reply s reply _
  | membershipSize reply => exact .reply s reply _
  | metadata reply => exact .reply s reply _
  | configurationId reply =>
      have hidle : Accounted 0 s (s.configurationId.1, []) := .idle rfl rfl
      exact hidle.answer reply _
  | shutdown => exact .idle rfl rfl
  | tickAlertBatcher => exact s.accounted_handleTick env.now
  | edgeFailure ev => exact .idle (s.quiet_handleEdgeFailure env.now ev).joinersToRespondTo rfl
  | rebuildFailureDetectors reply => exact s.accounted_rebuildDetectors.answer reply _
  | alertQueueLen reply => exact .reply s reply _
  | applyProposal proposal reply => exact (s.accounted_decide env proposal).answer reply _
  | startClassicRound => exact s.accounted_startClassic env
  | publishInitialView reply =>
      have hidle : Accounted 0 s (s.publishInitialView env) := .idle rfl rfl
      exact hidle.answer reply _

end ServiceState

/-! ## Runs -/

/-- The channels that commands came with. -/
def ServiceRun.channels (run : ServiceRun) : List ReplyId :=
  run.handled.filterMap ServiceCommand.reply?

theorem channels_next (run : ServiceRun) (env : Environment) (cmd : ServiceCommand) :
    (run.next env cmd).channels = run.channels ++ cmd.reply?.toList := by
  unfold ServiceRun.channels ServiceRun.next
  rw [List.filterMap_append]
  cases hid : cmd.reply? with
  | none => simp [hid]
  | some id => simp [hid]

theorem accounted_boots {outcome : Outcome} (h : Boots outcome) :
    (answered outcome.2 : Multiset ReplyId) + outcome.1.parked = 0 := by
  have hfinish : ∀ (listen : Endpoint) (settings : Settings) (view : MembershipView)
      (cutDetector : MultiNodeCutDetector) (metadata : MetadataManager),
      Accounted 0 (ServiceState.new listen view cutDetector metadata settings)
        (ServiceState.finishCluster listen settings view cutDetector metadata) := by
    intro listen settings view cutDetector metadata
    have hattached : Accounted 0 (ServiceState.new listen view cutDetector metadata settings)
        (({ ServiceState.new listen view cutDetector metadata settings with
            broadcaster := true
            fdFactory := true
            consensusClient := true } : ServiceState).reinstateFastPaxos) := .idle rfl rfl
    exact hattached.andThen (ServiceState.accounted_rebuildDetectors _)
  have hnobody : ∀ listen view cutDetector metadata settings,
      (ServiceState.new listen view cutDetector metadata settings).parked + 0 = 0 :=
    fun _ _ _ _ _ => (add_zero _).trans bag_empty
  rcases h with ⟨settings, listen, own, nodeId, hstart⟩ | ⟨settings, listen, own, response, hjoin⟩
  · rcases ServiceState.built_of_ok hstart with ⟨view, detector, _, _, rfl⟩
    exact (hfinish _ _ _ _ _).trans (hnobody _ _ _ _ _)
  · rcases ServiceState.built_of_ok hjoin with ⟨view, detector, _, _, rfl⟩
    exact (hfinish _ _ _ _ _).trans (hnobody _ _ _ _ _)

theorem replies_conserved {run : ServiceRun} (h : serviceSystem.Reachable run) :
    (answered run.trace : Multiset ReplyId) + run.state.parked = run.channels := by
  refine h.invariant (I := fun run =>
    (answered run.trace : Multiset ReplyId) + run.state.parked = run.channels) ?_ ?_
  · rintro run ⟨outcome, hboots, rfl⟩
    exact accounted_boots hboots
  · rintro run ⟨env, cmd⟩ run' _ hconserved _ hstep
    simp only [serviceSystem] at hstep
    split at hstep
    · cases hstep
      have hcommand : (answered (run.effects env cmd) : Multiset ReplyId) +
          (run.next env cmd).state.parked = run.state.parked + cmd.reply?.toList :=
        run.state.accounted_handleCommand env cmd
      calc (answered (run.trace ++ run.effects env cmd) : Multiset ReplyId) +
            (run.next env cmd).state.parked
          = answered run.trace + (answered (run.effects env cmd) +
              (run.next env cmd).state.parked) := by
            rw [answered_append, ← Multiset.coe_add, add_assoc]
        _ = answered run.trace + run.state.parked + cmd.reply?.toList := by
            rw [hcommand, add_assoc]
        _ = (run.next env cmd).channels := by
            rw [hconserved, channels_next, Multiset.coe_add]
    · cases hstep

end Replies

/-! ### A joiner that waits -/

section Sample

attribute [local instance] xxh64Reference

end Sample

end Rapid
