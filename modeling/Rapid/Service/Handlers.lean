import Rapid.Service.ServiceState

/-!
# Handlers — joins, alerts and failure detectors

`handlers.rs`, `alert_handler.rs`, `alert_batcher.rs` and `fd_scheduler.rs`. A handler that only
reads the clock takes the time, one that iterates a hash table takes the environment.
-/

namespace Rapid

open Foundations

namespace ServiceState

variable [Xxh64] (state : ServiceState)

/-! ## Queries, `state.rs` -/

def memberlist : List Endpoint :=
  (state.view.getRing 0).toOption.getD []

def membershipSize : Nat :=
  state.view.membershipSize

def metadataSnapshot (order : HashOrder EndpointKey) : List (Endpoint × Metadata) :=
  state.metadata.all order

/-- `state.view.current_configuration_id()`, which refreshes the view. -/
def configurationId : ServiceState × ConfigurationId :=
  ({ state with view := state.view.currentConfigurationId.1 }, state.view.currentConfigurationId.2)

/-! ## Alerts, `alert_handler.rs` -/

def enqueueAlert (now : Instant) (alert : AlertMessage) : ServiceState :=
  { state with
    lastEnqueueAt := some now
    sendQueue := state.sendQueue ++ [alert] }

def isValidAlert (alert : AlertMessage) (currentConfig : Int64) : Bool :=
  if alert.configurationId ≠ currentConfig then false
  else
    match alert.edgeDst with
    | none => false
    | some dst =>
        let isPresent := state.view.isHostPresent dst
        match MultiNodeCutDetector.statusOf alert with
        | .up => !isPresent
        | .down => isPresent

def extractJoiner (alert : AlertMessage) : ServiceState :=
  -- DOWN alerts say nothing about a joiner.
  if MultiNodeCutDetector.statusOf alert ≠ .up then state
  else
    match alert.edgeDst with
    | none => state
    | some dst =>
        { state with
          joinerUuid :=
            match alert.nodeId with
            | some id => state.joinerUuid.insert dst id
            | none => state.joinerUuid
          joinerMetadata :=
            match alert.metadata with
            | some metadata => state.joinerMetadata.insert dst metadata
            | none => state.joinerMetadata }

/-- The first pass over a batch: valid alerts are kept, and the joiners they name are noted. -/
def filterAlerts (currentConfig : Int64) :
    List AlertMessage → ServiceState → ServiceState × List AlertMessage
  | [], state => (state, [])
  | alert :: alerts, state =>
      if state.isValidAlert alert currentConfig then
        let rest := filterAlerts currentConfig alerts (state.extractJoiner alert)
        (rest.1, alert :: rest.2)
      else filterAlerts currentConfig alerts state

/-- The second pass: the cut detector and all that it emits. -/
def aggregateAlerts (order : HashOrder EndpointKey) :
    List AlertMessage → MultiNodeCutDetector → MultiNodeCutDetector × List Endpoint
  | [], detector => (detector, [])
  | alert :: alerts, detector =>
      let first := detector.aggregate order alert
      let rest := aggregateAlerts order alerts first.1
      (rest.1, first.2 ++ rest.2)

/-- `sort_by_key`, which is stable. -/
def sortBySeedZero (endpoints : List Endpoint) : List Endpoint :=
  endpoints.insertionSort fun a b => (addressHashSeedZero a).toNat ≤ (addressHashSeedZero b).toNat

/-- The proposal is empty unless the alerts complete a cut. -/
def handleBatchedAlerts (env : Environment) (batch : BatchedAlertMessage) :
    Outcome × List Endpoint :=
  let current := state.configurationId
  let state := current.1
  -- After an announcement alerts are dropped until the view changes.
  if state.lifecycle = .announcedProposal then ((state, []), [])
  else
    let valid := filterAlerts current.2 batch.messages state
    let state := valid.1
    let aggregated := aggregateAlerts env.proposalOrder valid.2 state.cutDetector
    let invalidated :=
      aggregated.1.invalidateFailingEdges env.preProposalOrder env.proposalOrder state.view
    let state := { state with cutDetector := invalidated.1, view := invalidated.2.1 }
    let proposal := (aggregated.2 ++ invalidated.2.2).toFinset
    if proposal = ∅ then ((state, []), [])
    else
      let state := { state with lifecycle := LifecycleState.announcedProposal }
      let ordered := sortBySeedZero (env.emittedOrder.list proposal)
      ((state, if state.proposalTx then [Effect.proposalSink ordered] else []), ordered)

/-! ## Joins, `handlers.rs` -/

def javaStatusCode : JoinDisposition → Int32
  | .hostnameAlreadyInRing => JoinStatusCode.hostnameAlreadyInRing.toInt32
  | .uuidAlreadyInRing => JoinStatusCode.uuidAlreadyInRing.toInt32
  | .safeToJoin => JoinStatusCode.safeToJoin.toInt32

def handlePreJoin (msg : PreJoinMessage) : ServiceState × JoinResponse :=
  let joiner := msg.sender.getD default
  let nodeId := msg.nodeId.getD default
  let status := state.view.isSafeToJoin joiner nodeId
  let current := state.configurationId
  let state := current.1
  (state,
    { sender := some state.myAddr
      configurationId := current.2
      statusCode := javaStatusCode status
      endpoints :=
        if status = .safeToJoin ∨ status = .hostnameAlreadyInRing then
          state.view.getExpectedObserversOf joiner
        else []
      identifiers := []
      metadataKeys := []
      metadataValues := [] })

def buildConfigMismatchResponse (order : HashOrder EndpointKey) (sender : Endpoint)
    (nodeId : NodeId) : ServiceState × JoinResponse :=
  let current := state.configurationId
  let state := current.1
  if state.view.isHostPresent sender ∧ state.view.isIdentifierPresent nodeId then
    let metadata := state.metadataSnapshot order
    (state,
      { sender := some state.myAddr
        configurationId := current.2
        statusCode := JoinStatusCode.safeToJoin.toInt32
        endpoints := state.memberlist
        identifiers := []
        metadataKeys := metadata.map Prod.fst
        metadataValues := metadata.map Prod.snd })
  else
    (state,
      { sender := some state.myAddr
        configurationId := current.2
        statusCode := JoinStatusCode.configChanged.toInt32
        endpoints := []
        identifiers := []
        metadataKeys := []
        metadataValues := [] })

/-- The joiner waits for the view change that lets it in. -/
def parkJoiner (now : Instant) (currentConfig : Int64) (sender : Endpoint) (nodeId : NodeId)
    (msg : JoinMessage) (reply : ReplyId) : ServiceState :=
  let state :=
    { state with
      joinersToRespondTo := state.joinersToRespondTo.insert sender
        ((state.joinersToRespondTo.lookup sender).getD [] ++ [reply])
      joinerUuid := state.joinerUuid.insert sender nodeId
      joinerMetadata :=
        match msg.metadata with
        | some metadata => state.joinerMetadata.insert sender metadata
        | none => state.joinerMetadata }
  -- The ring numbers are those that the joiner sent.
  state.enqueueAlert now
    { edgeSrc := some state.myAddr
      edgeDst := some sender
      edgeStatus := EdgeStatus.up.toInt32
      configurationId := currentConfig
      ringNumber := msg.ringNumber
      nodeId := some nodeId
      metadata := msg.metadata }

def joinReply (response : JoinResponse) : Reply :=
  .response (.ok ⟨some (.joinResponse response)⟩)

def handleJoin (env : Environment) (msg : JoinMessage) (reply : ReplyId) : Outcome :=
  let sender := msg.sender.getD default
  let nodeId := msg.nodeId.getD default
  let current := state.configurationId
  let state := current.1
  if current.2 = msg.configurationId then
    (state.parkJoiner env.now current.2 sender nodeId msg reply, [])
  else
    let response := state.buildConfigMismatchResponse env.metadataOrder sender nodeId
    (response.1, [.reply reply (joinReply response.2)])

/-! ## The alert batcher, `alert_batcher.rs` -/

def handleTick (now : Instant) : Outcome :=
  if state.sendQueue = [] then (state, [])
  else
    match state.lastEnqueueAt with
    | none => (state, [])
    | some last =>
        -- The window starts anew with every alert that is enqueued.
        if now - last ≤ state.settings.batchingWindow then (state, [])
        else
          let batch : BatchedAlertMessage :=
            { sender := some state.myAddr, messages := state.sendQueue }
          ({ state with sendQueue := [], lastEnqueueAt := none },
            if state.broadcaster then [.broadcast ⟨some (.batchedAlertMessage batch)⟩] else [])

/-! ## Failure detectors, `fd_scheduler.rs` -/

/-- `for h in state.failure_detector_tasks.drain(..) { h.abort(); }`. -/
def cancelFailureDetectors : Outcome :=
  ({ state with failureDetectorTasks := [] }, state.failureDetectorTasks.map .abortDetector)

def spawnDetectors : Outcome :=
  if state.fdFactory then
    let current := state.configurationId
    let state := current.1
    match state.view.getSubjectsOf state.myAddr with
    | .error _ => (state, [])
    | .ok subjects =>
        let tasks := subjects.map fun subject => DetectorTask.mk subject current.2
        ({ state with failureDetectorTasks := state.failureDetectorTasks ++ tasks },
          tasks.map .spawnDetector)
  else (state, [])

def rebuildDetectors : Outcome :=
  Outcome.andThen state.cancelFailureDetectors spawnDetectors

def handleEdgeFailure (now : Instant) (ev : EdgeFailure) : ServiceState :=
  let current := state.configurationId
  let state := current.1
  if ev.configurationId ≠ current.2 then state
  else
    -- A process that is no member itself reports on no ring.
    let ringNumbers := (state.view.getRingNumbers state.myAddr ev.subject).toOption.getD []
    state.enqueueAlert now
      { edgeSrc := some state.myAddr
        edgeDst := some ev.subject
        edgeStatus := EdgeStatus.down.toInt32
        configurationId := current.2
        ringNumber := ringNumbers.map fun ring => Int32.ofNat ring.toNat
        nodeId := none
        metadata := none }

end ServiceState

end Rapid
