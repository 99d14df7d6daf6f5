import Rapid.Service.Traffic
import Rapid.Foundations.Swarm

/-!
# ClusterSystem — all the actors of a cluster

Any number of actors boot as `ClusterBuilder` leaves them and handle commands in any interleaving.
Batches of alerts and consensus messages come from actors: one of them is handled only after some
actor has sent it, and then any actor may handle it, any number of times or never. Everything else
may come at any moment from clients, joiners, failure detectors and timers.
-/

namespace Rapid

open Foundations

section Actors

variable [Xxh64]

/-! ## The system -/

/-- How `ClusterBuilder` brings an actor up. -/
inductive Launch
  | start (settings : Settings) (listen : Endpoint) (own : Metadata) (nodeId : NodeId)
  | join (settings : Settings) (listen : Endpoint) (own : Metadata) (response : JoinResponse)

def Launch.outcome : Launch → Except Error Outcome
  | .start settings listen own nodeId => ServiceState.start settings listen own nodeId
  | .join settings listen own response => ServiceState.join settings listen own response

theorem Launch.boots {launch : Launch} {outcome : Outcome} (h : launch.outcome = .ok outcome) :
    Boots outcome := by
  cases launch with
  | start settings listen own nodeId => exact .inl ⟨settings, listen, own, nodeId, h⟩
  | join settings listen own response => exact .inr ⟨settings, listen, own, response, h⟩

omit [Xxh64] in
/-- Requests that actors send to each other. -/
def RapidRequest.internal (request : RapidRequest) : Bool :=
  match request.content with
  | some (.batchedAlertMessage _) => true
  | _ => request.consensusId?.isSome

omit [Xxh64] in
theorem internal_of_consensus {request : RapidRequest} {c : ConfigurationId}
    (h : request.consensusId? = some c) : request.internal = true := by
  unfold RapidRequest.internal
  split
  · rfl
  · rw [h]
    rfl

omit [Xxh64] in
/-- The message of another actor that a command hands over. -/
def ServiceCommand.delivers? : ServiceCommand → Option RapidRequest
  | .request message _ => if message.internal then some message else none
  | _ => none

def actors : Swarm Launch ServiceRun (Environment × ServiceCommand) RapidRequest where
  boot launch := launch.outcome.toOption.map fun outcome => ⟨outcome.1, outcome.2, [], false⟩
  step run a := serviceSystem.step run a
  delivers a := a.2.delivers?
  sends run a := sent (run.effects a.1 a.2)

abbrev Cluster (ι : Type*) :=
  SwarmWorld ι ServiceRun (Environment × ServiceCommand) RapidRequest

abbrev ClusterStep (ι : Type*) :=
  SwarmStep ι Launch (Environment × ServiceCommand)

def clusterSystem (ι : Type*) [DecidableEq ι] : System (Cluster ι) (ClusterStep ι) :=
  actors.system ι

/-! ## The past of a cluster -/

/-- An actor handles a command. -/
abbrev Handled (ι : Type*) :=
  SwarmEvent ι ServiceRun (Environment × ServiceCommand)

variable {ι : Type*}

namespace Handled

variable (e : Handled ι)

/-- The configuration in which the command was handled. -/
def configurationId : ConfigurationId :=
  e.state.state.view.currentConfigurationId.2

omit [Xxh64] in
def command : ServiceCommand :=
  e.input.2

def effects : List Effect :=
  e.state.effects e.input.1 e.input.2

end Handled

theorem boot_spec {launch : Launch} {run : ServiceRun} (h : actors.boot launch = some run) :
    ∃ outcome, Boots outcome ∧ run = ⟨outcome.1, outcome.2, [], false⟩ := by
  rcases Option.map_eq_some_iff.1 h with ⟨outcome, houtcome, rfl⟩
  exact ⟨outcome, launch.boots (eq_ok_of_toOption houtcome), rfl⟩

theorem act_spec {run run' : ServiceRun} {a : Environment × ServiceCommand}
    (h : actors.step run a = some run') : run' = run.next a.1 a.2 := by
  have hstep : (if !run.stopped && run.fresh a.2 then some (run.next a.1 a.2) else none) = some run' := h
  split at hstep
  · exact (Option.some.inj hstep).symm
  · cases hstep

/-- Every actor of a cluster runs as it would alone. -/
def soloRuns (ι : Type*) : actors.Local ι where
  node _ run := serviceSystem.Reachable run
  message _ _ := True
  event _ e := serviceSystem.Reachable e.state
  node_mono _ h := h
  message_mono _ h := h
  event_mono _ h := h
  boot h := .start (boot_spec h)
  step hnode _ _ hstep := ⟨.step hnode trivial hstep, fun _ _ => trivial, hnode⟩

theorem reachable_of_seen [DecidableEq ι] {ok : Cluster ι → ClusterStep ι → Prop} {w : Cluster ι}
    (h : (clusterSystem ι).Reaches ok w) {run : ServiceRun} (hseen : Swarm.Seen w run) :
    serviceSystem.Reachable run := by
  have hsolo := (soloRuns ι).reaches h
  rcases hseen with ⟨e, he, rfl⟩ | ⟨i, hi⟩
  · exact hsolo.past e he
  · exact hsolo.nodes i run hi

end Actors

/-! ### Two actors that let a joiner in -/

section Sample

attribute [local instance] xxh64Reference

/-- After a quiet window. -/
def laterEnvironment : Environment :=
  { ServiceState.sampleEnvironment with now := 200000000 }

/-- `hostA` and `hostB` have just joined. -/
def twin (listen : Endpoint) : Launch :=
  .join { Settings.default with k := 3, h := 3, l := 1 } listen default
    { sender := some hostA
      statusCode := JoinStatusCode.safeToJoin.toInt32
      configurationId := 0
      endpoints := [hostA, hostB]
      identifiers := [⟨1, 1⟩, ⟨2, 2⟩]
      metadataKeys := []
      metadataValues := [] }

/-- `hostC` asks to join on the three rings. -/
def thirdMessage (c : ConfigurationId) : JoinMessage where
  sender := some hostC
  nodeId := some ⟨3, 3⟩
  ringNumber := [0, 1, 2]
  configurationId := c
  metadata := none

def twinVote (c : ConfigurationId) (voter : Endpoint) : RapidRequest :=
  ⟨some (.fastRoundPhase2bMessage { sender := some voter, configurationId := c, endpoints := [hostC] })⟩

/-- The join, the tick that sends the alert, its delivery to both and the delivery of both votes. -/
def twinSteps (s : ServiceState) : List (ClusterStep Bool) :=
  let c := s.view.currentConfigurationId.2
  let parked := s.parkJoiner 0 c hostC ⟨3, 3⟩ (thirdMessage c) 0
  [.boot false (twin hostA), .boot true (twin hostB),
    .act false (ServiceState.sampleEnvironment, .request ⟨some (.joinMessage (thirdMessage c))⟩ 0),
    .act false (laterEnvironment, .tickAlertBatcher),
    .act false (laterEnvironment, .request parked.queuedBatch 1),
    .act true (laterEnvironment, .request parked.queuedBatch 1),
    .act false (laterEnvironment, .request (twinVote c hostA) 2),
    .act false (laterEnvironment, .request (twinVote c hostB) 3),
    .act true (laterEnvironment, .request (twinVote c hostB) 2),
    .act true (laterEnvironment, .request (twinVote c hostA) 3)]

def joiningCluster : Option (Cluster Bool) :=
  (actors.boot (twin hostA)).bind fun run =>
    (clusterSystem Bool).exec ⟨fun _ => none, [], []⟩ (twinSteps run.state)

theorem joiningCluster_reachable {w : Cluster Bool} (h : joiningCluster = some w) :
    (clusterSystem Bool).Reachable w := by
  rcases Option.bind_eq_some_iff.1 h with ⟨run, _, hexec⟩
  exact (System.Reaches.start rfl).exec hexec

end Sample

end Rapid
