import Rapid.Service.Handlers
import Rapid.Xxh64Reference

/-!
# ViewChange — decisions, consensus and the command loop

`view_change.rs`, `consensus_dispatch.rs` and `task.rs`.
-/

namespace Rapid

open Foundations

namespace ServiceState

variable [Xxh64] (state : ServiceState)

/-! ## The consensus instance, `consensus_dispatch.rs` -/

/-- A new instance for the current configuration; the pending fallback timer is aborted. -/
def reinstateFastPaxos : Outcome :=
  let aborted := state.pendingFallback.toList.map Effect.abortFallback
  let current := { state with pendingFallback := none }.configurationId
  let state := current.1
  ({ state with
      fastPaxos := some (FastPaxos.new state.myAddr current.2 state.view.membershipSize
        state.settings.paxosFallbackBaseDelay) },
    aborted ++ [.call .newFastPaxos])

def spawnFallback (delay : Duration) : Outcome :=
  let timer := state.timersSpawned
  ({ state with pendingFallback := some timer, timersSpawned := timer + 1 },
    state.pendingFallback.toList.map Effect.abortFallback ++ [.spawnFallback timer delay])

/-! ## Applying a proposal, `view_change.rs` -/

/-- A member of the proposal leaves. -/
def removeMember (node : Endpoint) : ServiceState × List NodeStatusChange :=
  ({ state with
      view := (state.view.ringDelete node).1
      metadata := state.metadata.remove node },
    [{ endpoint := node, status := .down, metadata := state.metadata.get node }])

/-- A node that is no member enters, when its id is known and new. -/
def admitJoiner (node : Endpoint) : ServiceState × List NodeStatusChange :=
  match state.joinerUuid.lookup node with
  | none => (state, [])
  | some nodeId =>
      let joinerMeta := (state.joinerMetadata.lookup node).getD default
      let state :=
        { state with
          joinerUuid := state.joinerUuid.erase node
          joinerMetadata := state.joinerMetadata.erase node }
      let added := state.view.ringAdd node nodeId
      let state := { state with view := added.1 }
      -- A joiner that the view rejects is forgotten all the same.
      match added.2 with
      | .error _ => (state, [])
      | .ok () =>
          ({ state with
              metadata :=
                if joinerMeta.metadata = ∅ then state.metadata
                else state.metadata.add [(node, joinerMeta)] },
            [{ endpoint := node, status := .up, metadata := joinerMeta }])

def applyNode (node : Endpoint) : ServiceState × List NodeStatusChange :=
  if state.view.isHostPresent node then state.removeMember node else state.admitJoiner node

/-- The loop over the proposal. -/
def applyNodes : List Endpoint → ServiceState → ServiceState × List NodeStatusChange
  | [], state => (state, [])
  | node :: nodes, state =>
      let first := state.applyNode node
      let rest := applyNodes nodes first.1
      (rest.1, first.2 ++ rest.2)

/-- The replies parked for the nodes of the proposal are answered. -/
def answerParked (reply : Reply) : List Endpoint → ServiceState → Outcome
  | [], state => (state, [])
  | node :: nodes, state =>
      match state.joinersToRespondTo.lookup node with
      | none => answerParked reply nodes state
      | some parked =>
          let rest := answerParked reply nodes
            { state with joinersToRespondTo := state.joinersToRespondTo.erase node }
          (rest.1, parked.map (.reply · reply) ++ rest.2)

def respondToJoiners (env : Environment) (proposal newMembership : List Endpoint) : Outcome :=
  let current := state.configurationId
  let state := current.1
  let metadata := state.metadata.all env.metadataOrder
  let response : JoinResponse :=
    { sender := some state.myAddr
      statusCode := JoinStatusCode.safeToJoin.toInt32
      configurationId := current.2
      endpoints := newMembership
      identifiers := state.view.currentIdentifiers
      metadataKeys := metadata.map Prod.fst
      metadataValues := metadata.map Prod.snd }
  answerParked (joinReply response) proposal state

/-- The consensus instance is replaced before the recipients are updated, and both before the
detectors. -/
def decideViewChange (env : Environment) (proposal : List Endpoint) : Outcome :=
  Outcome.andThen (state, [.call (.decideViewChange state proposal)]) fun state =>
  state.cancelFailureDetectors.andThen fun state =>
  let applied := applyNodes proposal state
  let current := applied.1.configurationId
  let state := current.1
  let newMembership := state.memberlist
  let event : ClusterStatusChange :=
    { configurationId := current.2, membership := newMembership, delta := applied.2 }
  let state :=
    { state with
      cutDetector := state.cutDetector.clear
      lifecycle := LifecycleState.running }
  -- Subscribers hear of the change before the joiners are answered.
  Outcome.andThen (state, [.publish .viewChange event]) fun state =>
  state.reinstateFastPaxos.andThen fun state =>
  Outcome.andThen (state, if state.broadcaster then [.setMembership newMembership] else [])
    fun state =>
  Outcome.andThen
    -- A member that was removed monitors nobody any more.
    (if state.view.isHostPresent state.myAddr then state.rebuildDetectors
      else (state, [.publish .kicked event])) fun state =>
  state.respondToJoiners env proposal newMembership

/-! ## Dispatching consensus, `consensus_dispatch.rs` -/

def dispatchOne (env : Environment) : FastOutgoing → ServiceState → Outcome
  | .broadcast request, state => (state, if state.broadcaster then [.broadcast request] else [])
  | .unicast target request, state =>
      (state, if state.consensusClient then [.unicast target request] else [])
  | .scheduleClassicFallback delay, state => state.spawnFallback delay
  | .decision proposal, state =>
      (state.decideViewChange env proposal).andThen reinstateFastPaxos

def dispatch (env : Environment) : List FastOutgoing → ServiceState → Outcome
  | [], state => (state, [])
  | out :: outs, state => (dispatchOne env out state).andThen (dispatch env outs)

def propose (env : Environment) (proposal : List Endpoint) : Outcome :=
  match state.fastPaxos with
  | none => (state, [])
  | some fp =>
      let r := fp.propose env.jitter proposal
      Outcome.andThen ({ state with fastPaxos := some r.1 }, [.call (.propose proposal)])
        (dispatch env r.2)

def startClassic (env : Environment) : Outcome :=
  match state.fastPaxos with
  | none => (state, [])
  | some fp =>
      let r := fp.startClassicRound
      Outcome.andThen ({ state with fastPaxos := some r.1 }, [.call .startClassicRound])
        (dispatch env r.2)

def handleConsensusRequest (env : Environment) (request : RapidRequest) : Outcome :=
  match state.fastPaxos with
  | none => (state, [])
  | some fp =>
      let r := fp.handleConsensusMessage request
      dispatch env r.2 { state with fastPaxos := some r.1 }

/-! ## The command loop, `task.rs` -/

/-- The synthetic first event: every member is `UP`. -/
def publishInitialView (env : Environment) : Outcome :=
  let current := state.configurationId
  let state := current.1
  let membership := state.memberlist
  let metadataLookup : Finmap fun _ : EndpointKey => Metadata :=
    (state.metadataSnapshot env.metadataOrder).foldl (fun table entry => table.insert entry.1 entry.2) ∅
  let delta := membership.map fun e =>
    NodeStatusChange.mk e .up ((metadataLookup.lookup e).getD default)
  (state, [.publish .viewChange
    { configurationId := current.2, membership := membership, delta := delta }])

/-- The empty response to a request that asks for nothing. -/
def emptyReply : Reply :=
  .response (.ok ⟨none⟩)

def handleRequest (env : Environment) (request : RapidRequest) (reply : ReplyId) : Outcome :=
  if state.lifecycle = .shuttingDown then (state, [.reply reply (.response (.error .shutdown))])
  else
    match request.content with
    | none => (state, [.reply reply (.response (.error .noContent))])
    | some content =>
        match content with
        | .preJoinMessage msg =>
            let r := state.handlePreJoin msg
            (r.1, [.reply reply (joinReply r.2)])
        | .joinMessage msg => state.handleJoin env msg reply
        | .batchedAlertMessage msg =>
            let r := state.handleBatchedAlerts env msg
            (r.1.andThen fun state => if r.2 = [] then (state, []) else state.propose env r.2).andThen
              fun state => (state, [.reply reply emptyReply])
        | .probeMessage _ =>
            (state, [.reply reply (.response
              (.ok ⟨some (.probeResponse ⟨NodeStatus.ok.toInt32⟩)⟩))])
        -- A leave is an edge failure of its sender.
        | .leaveMessage msg =>
            match msg.sender with
            | none => (state, [.reply reply emptyReply])
            | some sender =>
                let current := state.configurationId
                (current.1.handleEdgeFailure env.now ⟨sender, current.2⟩, [.reply reply emptyReply])
        | _ =>
            (state.handleConsensusRequest env ⟨some content⟩).andThen fun state =>
              (state, [.reply reply emptyReply])

/-- The flag tells whether the loop ends. -/
def handleCommand (env : Environment) (cmd : ServiceCommand) : Outcome × Bool :=
  match cmd with
  | .shutdown => (({ state with lifecycle := .shuttingDown }, []), true)
  | .memberlist reply => ((state, [.reply reply (.memberlist state.memberlist)]), false)
  | .membershipSize reply => ((state, [.reply reply (.membershipSize state.membershipSize)]), false)
  | .metadata reply =>
      ((state, [.reply reply (.metadata (state.metadataSnapshot env.metadataOrder))]), false)
  | .configurationId reply =>
      ((state.configurationId.1, [.reply reply (.configurationId state.configurationId.2)]), false)
  | .request request reply => (state.handleRequest env request reply, false)
  | .tickAlertBatcher => (state.handleTick env.now, false)
  | .edgeFailure ev => ((state.handleEdgeFailure env.now ev, []), false)
  | .rebuildFailureDetectors reply =>
      (state.rebuildDetectors.andThen fun state =>
        (state, [.reply reply (.detectors state.failureDetectorTasks.length)]), false)
  | .alertQueueLen reply => ((state, [.reply reply (.queueLen state.sendQueue.length)]), false)
  | .applyProposal proposal reply =>
      (((state.decideViewChange env proposal).andThen reinstateFastPaxos).andThen fun state =>
        (state, [.reply reply .done]), false)
  | .startClassicRound => (state.startClassic env, false)
  | .publishInitialView reply =>
      ((state.publishInitialView env).andThen fun state => (state, [.reply reply .done]), false)

/-! ## Bootstrap, `cluster/bootstrap.rs` and the first line of `task.rs` -/

/-- `finish_cluster`, up to the first command. -/
def finishCluster (listen : Endpoint) (settings : Settings) (view : MembershipView)
    (cutDetector : MultiNodeCutDetector) (metadata : MetadataManager) : Outcome :=
  Outcome.andThen
    ({ ServiceState.new listen view cutDetector metadata settings with
        broadcaster := true
        fdFactory := true
        consensusClient := true }, []) fun state =>
  state.reinstateFastPaxos.andThen rebuildDetectors

/-- The metadata of the node itself, unless it is empty. -/
def addOwn (metadata : MetadataManager) (listen : Endpoint) (own : Metadata) : MetadataManager :=
  if own.metadata = ∅ then metadata else metadata.add [(listen, own)]

/-- `ClusterBuilder::start`: a seed node alone in its view. -/
def start (settings : Settings) (listen : Endpoint) (own : Metadata) (nodeId : NodeId) :
    Except Error Outcome := do
  let view ← MembershipView.bootstrap settings.k [nodeId] [listen]
  let cutDetector ← MultiNodeCutDetector.new settings.k settings.h settings.l
  return finishCluster listen settings view cutDetector (addOwn .new listen own)

/-- `ClusterBuilder::join`, from the response of the join protocol on. -/
def join (settings : Settings) (listen : Endpoint) (own : Metadata) (response : JoinResponse) :
    Except Error Outcome := do
  let view ← MembershipView.bootstrap settings.k response.identifiers response.endpoints
  let cutDetector ← MultiNodeCutDetector.new settings.k settings.h settings.l
  let metadata := MetadataManager.new.add (response.metadataKeys.zip response.metadataValues)
  return finishCluster listen settings view cutDetector (addOwn metadata listen own)

/-! ## Small clusters for examples -/

/-- An environment in which nothing is delayed and tables are iterated by key. -/
def sampleEnvironment : Environment where
  now := 0
  jitter := 0
  preProposalOrder := endpointOrder
  proposalOrder := endpointOrder
  emittedOrder := endpointOrder
  metadataOrder := endpointOrder

/-- The node `hostA` joins a cluster with three rings. -/
def sampleJoin (h l : UInt8) (identifiers : List NodeId) (endpoints : List Endpoint) :
    Except Error Outcome :=
  join { Settings.default with k := 3, h := h, l := l } hostA default
    { sender := none
      statusCode := JoinStatusCode.safeToJoin.toInt32
      configurationId := 0
      endpoints := endpoints
      identifiers := identifiers
      metadataKeys := []
      metadataValues := [] }

/-- The actor of `hostA` after it joined. -/
def sampleCluster (h l : UInt8) (identifiers : List NodeId) (endpoints : List Endpoint) :
    Option ServiceState :=
  (sampleJoin h l identifiers endpoints).toOption.map Prod.fst

/-- An alert of `hostC` about the endpoint on some rings, for the current configuration. -/
def sampleAlert (status : EdgeStatus) (rings : List Int32) (subject : Endpoint)
    (nodeId : Option NodeId) : AlertMessage where
  edgeSrc := some hostC
  edgeDst := some subject
  edgeStatus := status.toInt32
  configurationId := state.configurationId.2
  ringNumber := rings
  nodeId := nodeId
  metadata := none

end ServiceState

end Rapid
