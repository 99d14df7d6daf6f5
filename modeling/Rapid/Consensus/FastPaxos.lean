import Rapid.Consensus.Paxos

/-!
# FastPaxos — the fast-round wrapper of `consensus/fast_paxos.rs`

A fast round of votes counted per sender, with the classic `Paxos` machine inside. The jitter of
the fallback delay is drawn at random in floating point in the source; here `propose` takes the
drawn jitter as an argument.
-/

namespace Rapid

open Foundations

/-- `Duration`, in nanoseconds. -/
abbrev Duration := Nat

inductive FastOutgoing
  | broadcast (request : RapidRequest)
  | unicast (target : Endpoint) (request : RapidRequest)
  | scheduleClassicFallback (delay : Duration)
  | decision (proposal : List Endpoint)
  deriving DecidableEq

/-- The part of an effect that the other instances can see. -/
def FastOutgoing.emission? : FastOutgoing → Option PaxosOutgoing
  | broadcast request => some (.broadcast request)
  | unicast target request => some (.unicast target request)
  | scheduleClassicFallback _ => none
  | decision proposal => some (.decision proposal)

def wrap : PaxosOutgoing → FastOutgoing
  | .broadcast request => .broadcast request
  | .unicast target request => .unicast target request
  | .decision proposal => .decision proposal

@[simp] theorem emission?_wrap (out : PaxosOutgoing) : (wrap out).emission? = some out := by
  cases out <;> rfl

structure FastPaxos where
  myAddr : Endpoint
  configurationId : Int64
  membershipSize : Nat
  paxos : Paxos
  votesReceived : Finset EndpointKey
  votesPerProposal : Finmap fun _ : List EndpointKey => Nat
  proposalLookup : Finmap fun _ : List EndpointKey => List Endpoint
  decided : Bool
  fallbackBaseDelay : Duration
  classicStarted : Bool

namespace FastPaxos

def new (myAddr : Endpoint) (configurationId : Int64) (membershipSize : Nat)
    (fallbackBaseDelay : Duration) : FastPaxos where
  myAddr := myAddr
  configurationId := configurationId
  membershipSize := membershipSize
  paxos := Paxos.new myAddr configurationId membershipSize
  votesReceived := ∅
  votesPerProposal := ∅
  proposalLookup := ∅
  decided := false
  fallbackBaseDelay := fallbackBaseDelay
  classicStarted := false

variable (self : FastPaxos)

def randomDelay (jitter : Duration) : Duration :=
  self.fallbackBaseDelay + jitter

def propose (jitter : Duration) (proposal : List Endpoint) : FastPaxos × List FastOutgoing :=
  let msg : FastRoundPhase2bMessage :=
    { configurationId := self.configurationId, endpoints := proposal, sender := some self.myAddr }
  ({ self with paxos := self.paxos.registerFastRoundVote proposal },
    [.broadcast ⟨some (.fastRoundPhase2bMessage msg)⟩, .scheduleClassicFallback (self.randomDelay jitter)])

/-- The number of faults `F` that the fast quorum tolerates. -/
def faults (membershipSize : Nat) : Nat :=
  (membershipSize - 1) / 4

def handleFastRoundProposal (msg : FastRoundPhase2bMessage) : FastPaxos × List FastOutgoing :=
  if msg.configurationId ≠ self.configurationId ∨ self.decided then (self, [])
  else
    match msg.sender with
    | none => (self, [])
    | some sender =>
        -- Only the first vote of a sender counts.
        if sender ∈ self.votesReceived then (self, [])
        else
          let count := (self.votesPerProposal.lookup msg.endpoints).getD 0 + 1
          let self :=
            { self with
              votesReceived := insert sender self.votesReceived
              proposalLookup :=
                if msg.endpoints ∈ self.proposalLookup then self.proposalLookup
                else self.proposalLookup.insert msg.endpoints msg.endpoints
              votesPerProposal := self.votesPerProposal.insert msg.endpoints count }
          let f := faults self.membershipSize
          -- Both the senders and the votes for this value have to reach the quorum.
          if self.votesReceived.card ≥ self.membershipSize - f ∧
              count ≥ self.membershipSize - f then
            ({ self with decided := true }, [.decision msg.endpoints])
          else (self, [])

def startClassicRound [Xxh64] : FastPaxos × List FastOutgoing :=
  if self.decided || self.classicStarted then (self, [])
  else
    let (paxos, outs) := self.paxos.startPhase1a 2
    ({ self with classicStarted := true, paxos := paxos }, outs.map wrap)

/-- The common end of the four classic branches of `handle_consensus_message`. -/
def afterClassic (r : Paxos × List PaxosOutgoing) : FastPaxos × List FastOutgoing :=
  ({ self with paxos := r.1, decided := self.decided || r.1.decided }, r.2.map wrap)

def handleConsensusMessage (request : RapidRequest) : FastPaxos × List FastOutgoing :=
  match request.content with
  | none => (self, [])
  | some content =>
      match content with
      | .phase1aMessage msg => self.afterClassic (self.paxos.handlePhase1a msg)
      | .phase1bMessage msg => self.afterClassic (self.paxos.handlePhase1b msg)
      | .phase2aMessage msg => self.afterClassic (self.paxos.handlePhase2a msg)
      | .phase2bMessage msg => self.afterClassic (self.paxos.handlePhase2b msg)
      | .fastRoundPhase2bMessage msg => self.handleFastRoundProposal msg
      | _ => (self, [])

end FastPaxos

end Rapid
