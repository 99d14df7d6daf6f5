import Rapid.CutDetector.MultiNodeCutDetector
import Rapid.Consensus.FastPaxos

/-!
# ServiceState — what the membership actor owns, `service/state.rs`

The actor handles one command at a time and is the only owner of its state, so a handler is a
function from the state to the state it leaves behind and the effects it has on the world outside:
replies, messages, events, timers and tasks. Whatever the environment chooses while a command is
handled (the time, the jitter of a delay, the orders of the hash tables) comes in one
`Environment`.
-/

namespace Rapid

open Foundations

/-! ## Metadata, `metadata.rs` -/

structure MetadataManager where
  roleMap : Finmap fun _ : EndpointKey => Metadata
  endpointObjs : Finmap fun _ : EndpointKey => Endpoint

namespace MetadataManager

def new : MetadataManager where
  roleMap := ∅
  endpointObjs := ∅

variable (self : MetadataManager)

def get (node : Endpoint) : Metadata :=
  (self.roleMap.lookup node).getD default

/-- One entry of `add`: the first one stays. -/
def addEntry (entry : Endpoint × Metadata) : MetadataManager where
  roleMap :=
    if entry.1 ∈ self.roleMap then self.roleMap else self.roleMap.insert entry.1 entry.2
  endpointObjs :=
    if entry.1 ∈ self.endpointObjs then self.endpointObjs
    else self.endpointObjs.insert entry.1 entry.1

def add (entries : List (Endpoint × Metadata)) : MetadataManager :=
  entries.foldl addEntry self

def remove (node : Endpoint) : MetadataManager where
  roleMap := self.roleMap.erase node
  endpointObjs := self.endpointObjs.erase node

/-- All pairs, in the order of the hash map. -/
def all (order : HashOrder EndpointKey) : List (Endpoint × Metadata) :=
  (order.entries self.roleMap).map fun entry =>
    ((self.endpointObjs.lookup entry.1).getD default, entry.2)

end MetadataManager

/-! ## Events, `events.rs` -/

inductive ClusterEvent
  | viewChangeProposal
  | viewChange
  | viewChangeOneStepFailed
  | kicked
  deriving DecidableEq, Repr

structure NodeStatusChange where
  endpoint : Endpoint
  status : EdgeStatus
  metadata : Metadata
  deriving DecidableEq

structure ClusterStatusChange where
  configurationId : ConfigurationId
  membership : List Endpoint
  delta : List NodeStatusChange
  deriving DecidableEq

/-! ## The state -/

/-- A point on the actor's clock, in nanoseconds. -/
abbrev Instant := Nat

/-- The sending half of a oneshot channel. -/
abbrev ReplyId := Nat

/-- The handle of a spawned timer task. -/
abbrev TimerId := Nat

/-- The settings that the actor reads. -/
structure Settings where
  k : UInt8
  h : UInt8
  l : UInt8
  batchingWindow : Duration
  paxosFallbackBaseDelay : Duration

/-- `Settings::default`. -/
def Settings.default : Settings where
  k := 10
  h := 9
  l := 4
  batchingWindow := 100000000
  paxosFallbackBaseDelay := 1000000000

inductive LifecycleState
  | running
  | announcedProposal
  | shuttingDown
  deriving DecidableEq, Repr

/-- A running failure-detector task. -/
structure DetectorTask where
  subject : Endpoint
  configurationId : ConfigurationId
  deriving DecidableEq

/-- `EdgeFailure`: what a detector task tells the actor. -/
structure EdgeFailure where
  subject : Endpoint
  configurationId : ConfigurationId
  deriving DecidableEq

/-- The collaborators of the actor (`broadcaster`, `proposal_tx`, `fd_factory` with its notifier,
`consensus_client`) are attached or not; `timersSpawned` numbers the handles of fallback timers. -/
structure ServiceState where
  settings : Settings
  myAddr : Endpoint
  view : MembershipView
  cutDetector : MultiNodeCutDetector
  metadata : MetadataManager
  joinersToRespondTo : Finmap fun _ : EndpointKey => List ReplyId
  joinerUuid : Finmap fun _ : EndpointKey => NodeId
  joinerMetadata : Finmap fun _ : EndpointKey => Metadata
  lifecycle : LifecycleState
  sendQueue : List AlertMessage
  lastEnqueueAt : Option Instant
  broadcaster : Bool
  proposalTx : Bool
  failureDetectorTasks : List DetectorTask
  fdFactory : Bool
  fastPaxos : Option FastPaxos
  consensusClient : Bool
  pendingFallback : Option TimerId
  timersSpawned : Nat

/-! ## Commands and effects -/

inductive ServiceCommand
  | request (request : RapidRequest) (reply : ReplyId)
  | memberlist (reply : ReplyId)
  | membershipSize (reply : ReplyId)
  | metadata (reply : ReplyId)
  | configurationId (reply : ReplyId)
  | shutdown
  | tickAlertBatcher
  | edgeFailure (ev : EdgeFailure)
  | rebuildFailureDetectors (reply : ReplyId)
  | alertQueueLen (reply : ReplyId)
  | applyProposal (proposal : List Endpoint) (reply : ReplyId)
  | startClassicRound
  | publishInitialView (reply : ReplyId)
  deriving DecidableEq

/-- Why a request is refused: `Error::Shutdown`, or `Error::Decode` of a request without content. -/
inductive RequestError
  | shutdown
  | noContent
  deriving DecidableEq

/-- What is sent on a reply channel. -/
inductive Reply
  | response (response : Except RequestError RapidResponse)
  | memberlist (endpoints : List Endpoint)
  | membershipSize (size : Nat)
  | metadata (entries : List (Endpoint × Metadata))
  | configurationId (id : ConfigurationId)
  | detectors (count : Nat)
  | queueLen (count : Nat)
  | done

/-- The calls that the properties of the actor are about. They are recorded, in order, among the
effects; nobody outside sees them. -/
inductive Call
  | newFastPaxos
  | propose (proposal : List Endpoint)
  | startClassicRound
  | decideViewChange (state : ServiceState) (proposal : List Endpoint)

/-- Recipients are given by their endpoints. -/
inductive Effect
  | reply (id : ReplyId) (reply : Reply)
  | broadcast (request : RapidRequest)
  | unicast (target : Endpoint) (request : RapidRequest)
  | setMembership (recipients : List Endpoint)
  | publish (event : ClusterEvent) (change : ClusterStatusChange)
  | proposalSink (proposal : List Endpoint)
  | spawnFallback (timer : TimerId) (delay : Duration)
  | abortFallback (timer : TimerId)
  | spawnDetector (task : DetectorTask)
  | abortDetector (task : DetectorTask)
  | call (call : Call)

/-- What the environment chooses while one command is handled. -/
structure Environment where
  now : Instant
  jitter : Duration
  preProposalOrder : HashOrder EndpointKey
  proposalOrder : HashOrder EndpointKey
  emittedOrder : HashOrder EndpointKey
  metadataOrder : HashOrder EndpointKey

/-- The state a handler leaves behind, and its effects in order. -/
abbrev Outcome := ServiceState × List Effect

/-- Continue with another handler. -/
def Outcome.andThen (outcome : Outcome) (next : ServiceState → Outcome) : Outcome :=
  ((next outcome.1).1, outcome.2 ++ (next outcome.1).2)

@[simp] theorem Outcome.andThen_state (outcome : Outcome) (next : ServiceState → Outcome) :
    (outcome.andThen next).1 = (next outcome.1).1 := rfl

@[simp] theorem Outcome.andThen_effects (outcome : Outcome) (next : ServiceState → Outcome) :
    (outcome.andThen next).2 = outcome.2 ++ (next outcome.1).2 := rfl

/-- `ServiceState::new`: nothing is attached yet. -/
def ServiceState.new (myAddr : Endpoint) (view : MembershipView) (cutDetector : MultiNodeCutDetector)
    (metadata : MetadataManager) (settings : Settings) : ServiceState where
  settings := settings
  myAddr := myAddr
  view := view
  cutDetector := cutDetector
  metadata := metadata
  joinersToRespondTo := ∅
  joinerUuid := ∅
  joinerMetadata := ∅
  lifecycle := .running
  sendQueue := []
  lastEnqueueAt := none
  broadcaster := false
  proposalTx := false
  failureDetectorTasks := []
  fdFactory := false
  fastPaxos := none
  consensusClient := false
  pendingFallback := none
  timersSpawned := 0

end Rapid
