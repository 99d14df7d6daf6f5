import Rapid.Foundations.MachineInt
import Mathlib.Data.Finmap

/-!
# Pb — the wire messages of `proto/rapid.proto`

Every submessage field is optional on the wire, repeated fields are lists, enumerations travel as
`int32`. Map fields and hash maps are finite maps.
-/

namespace Rapid

structure Endpoint where
  hostname : List UInt8
  port : Int32
  deriving DecidableEq, Repr, Inhabited

/-- The hashable copy of an endpoint that every Rust module declares for itself: it has the same
two fields, so the model uses the endpoint. -/
abbrev EndpointKey := Endpoint

structure NodeId where
  high : Int64
  low : Int64
  deriving DecidableEq, Repr, Inhabited

/-- `map<string, bytes>`. -/
structure Metadata where
  metadata : Finmap fun _ : String => List UInt8
  deriving DecidableEq

instance : Inhabited Metadata := ⟨⟨∅⟩⟩

/-! ## Enumerations -/

inductive EdgeStatus
  | up
  | down
  deriving DecidableEq, Repr

namespace EdgeStatus

def toInt32 : EdgeStatus → Int32
  | up => 0
  | down => 1

def tryFrom (i : Int32) : Option EdgeStatus :=
  if i = 0 then some up else if i = 1 then some down else none

end EdgeStatus

inductive JoinStatusCode
  | hostnameAlreadyInRing
  | uuidAlreadyInRing
  | safeToJoin
  | configChanged
  | membershipRejected
  deriving DecidableEq, Repr

def JoinStatusCode.toInt32 : JoinStatusCode → Int32
  | hostnameAlreadyInRing => 0
  | uuidAlreadyInRing => 1
  | safeToJoin => 2
  | configChanged => 3
  | membershipRejected => 4

inductive NodeStatus
  | ok
  | bootstrapping
  deriving DecidableEq, Repr

def NodeStatus.toInt32 : NodeStatus → Int32
  | ok => 0
  | bootstrapping => 1

/-! ## Join protocol -/

structure PreJoinMessage where
  sender : Option Endpoint
  nodeId : Option NodeId
  ringNumber : List Int32
  configurationId : Int64
  deriving DecidableEq

structure JoinMessage where
  sender : Option Endpoint
  nodeId : Option NodeId
  ringNumber : List Int32
  configurationId : Int64
  metadata : Option Metadata
  deriving DecidableEq

structure JoinResponse where
  sender : Option Endpoint
  statusCode : Int32
  configurationId : Int64
  endpoints : List Endpoint
  identifiers : List NodeId
  metadataKeys : List Endpoint
  metadataValues : List Metadata
  deriving DecidableEq

/-! ## Alerts -/

structure AlertMessage where
  edgeSrc : Option Endpoint
  edgeDst : Option Endpoint
  edgeStatus : Int32
  configurationId : Int64
  ringNumber : List Int32
  nodeId : Option NodeId
  metadata : Option Metadata
  deriving DecidableEq

structure BatchedAlertMessage where
  sender : Option Endpoint
  messages : List AlertMessage
  deriving DecidableEq

/-! ## Consensus -/

structure Rank where
  round : Int32
  nodeIndex : Int32
  deriving DecidableEq, Repr

structure FastRoundPhase2bMessage where
  sender : Option Endpoint
  configurationId : Int64
  endpoints : List Endpoint
  deriving DecidableEq

structure Phase1aMessage where
  sender : Option Endpoint
  configurationId : Int64
  rank : Option Rank
  deriving DecidableEq

structure Phase1bMessage where
  sender : Option Endpoint
  configurationId : Int64
  rnd : Option Rank
  vrnd : Option Rank
  vval : List Endpoint
  deriving DecidableEq

structure Phase2aMessage where
  sender : Option Endpoint
  configurationId : Int64
  rnd : Option Rank
  vval : List Endpoint
  deriving DecidableEq

structure Phase2bMessage where
  sender : Option Endpoint
  configurationId : Int64
  rnd : Option Rank
  endpoints : List Endpoint
  deriving DecidableEq

/-! ## Leave and probes -/

structure LeaveMessage where
  sender : Option Endpoint
  deriving DecidableEq

structure ProbeMessage where
  sender : Option Endpoint
  payload : List (List UInt8)
  deriving DecidableEq

structure ProbeResponse where
  status : Int32
  deriving DecidableEq

/-! ## Envelopes -/

inductive RapidRequest.Content
  | preJoinMessage (msg : PreJoinMessage)
  | joinMessage (msg : JoinMessage)
  | batchedAlertMessage (msg : BatchedAlertMessage)
  | probeMessage (msg : ProbeMessage)
  | fastRoundPhase2bMessage (msg : FastRoundPhase2bMessage)
  | phase1aMessage (msg : Phase1aMessage)
  | phase1bMessage (msg : Phase1bMessage)
  | phase2aMessage (msg : Phase2aMessage)
  | phase2bMessage (msg : Phase2bMessage)
  | leaveMessage (msg : LeaveMessage)
  deriving DecidableEq

structure RapidRequest where
  content : Option RapidRequest.Content
  deriving DecidableEq

inductive RapidResponse.Content
  | joinResponse (msg : JoinResponse)
  | response
  | consensusResponse
  | probeResponse (msg : ProbeResponse)
  deriving DecidableEq

structure RapidResponse where
  content : Option RapidResponse.Content
  deriving DecidableEq

end Rapid
