import Rapid.ViewHash
import Rapid.Foundations.Network

/-!
# Paxos — the single-decree state machine of `consensus/paxos.rs`

Every method of the Rust type returns the next state and the list of outgoing effects. The
coordinator rule is `selectProposalFromMessages`.
-/

namespace Rapid

open Foundations

/-! ## Ranks -/

def rankTuple (r : Rank) : Int32 ×ₗ Int32 :=
  toLex (r.round, r.nodeIndex)

theorem rankTuple_injective : Function.Injective rankTuple := by
  intro a b h
  have hpair : (a.round, a.nodeIndex) = (b.round, b.nodeIndex) := toLex.injective h
  cases a
  cases b
  simpa using hpair

instance : LinearOrder Rank :=
  LinearOrder.lift' rankTuple rankTuple_injective

instance : Finite Rank :=
  Finite.of_injective (fun r : Rank => (r.round, r.nodeIndex)) fun a b h => by
    cases a
    cases b
    simpa using h

def compareRanks (left right : Rank) : Ordering :=
  compare (rankTuple left) (rankTuple right)

theorem Rank.lt_iff {a b : Rank} :
    a < b ↔ a.round < b.round ∨ a.round = b.round ∧ a.nodeIndex < b.nodeIndex :=
  Prod.Lex.toLex_lt_toLex

theorem Rank.le_iff {a b : Rank} :
    a ≤ b ↔ a.round < b.round ∨ a.round = b.round ∧ a.nodeIndex ≤ b.nodeIndex :=
  Prod.Lex.toLex_le_toLex

@[simp] theorem compareRanks_eq_lt {a b : Rank} : compareRanks a b = .lt ↔ a < b :=
  compare_lt_iff_lt

@[simp] theorem compareRanks_eq_gt {a b : Rank} : compareRanks a b = .gt ↔ b < a :=
  compare_gt_iff_gt

@[simp] theorem compareRanks_eq_eq {a b : Rank} : compareRanks a b = .eq ↔ a = b := by
  unfold compareRanks
  rw [compare_eq_iff_eq, rankTuple_injective.eq_iff]

/-- The hash of the endpoint folded to 32 bits. -/
def stableNodeIndex [Xxh64] (endpoint : Endpoint) : Int32 :=
  let h := addressHash 0 endpoint
  (h ^^^ (h >>> 32)).toUInt32.toInt32

/-! ## State and effects -/

/-- `Broadcast`, `Unicast` and `Decision` are the three emissions of a networked machine. -/
abbrev PaxosOutgoing := Emission Endpoint RapidRequest (List Endpoint)

structure Paxos where
  myAddr : Endpoint
  configurationId : Int64
  n : Nat
  rnd : Rank
  vrnd : Rank
  vval : List Endpoint
  phase1bMessages : List Phase1bMessage
  acceptResponses : Finmap fun _ : Rank => Finmap fun _ : EndpointKey => Phase2bMessage
  crnd : Rank
  cval : List Endpoint
  decided : Bool

namespace Paxos

def new (myAddr : Endpoint) (configurationId : Int64) (n : Nat) : Paxos where
  myAddr := myAddr
  configurationId := configurationId
  n := n
  rnd := ⟨0, 0⟩
  vrnd := ⟨0, 0⟩
  vval := []
  phase1bMessages := []
  acceptResponses := ∅
  crnd := ⟨0, 0⟩
  cval := []
  decided := false

/-! ## The coordinator rule -/

/-- The scan over the collected values: the first one whose count so far exceeds `quarter`. -/
def scanCollected (quarter : Nat) (counters : Finmap fun _ : List EndpointKey => Nat) :
    List (List Endpoint) → Option (List Endpoint)
  | [] => none
  | v :: rest =>
      let entry := (counters.lookup v).getD 0
      if entry + 1 > quarter then some v
      else scanCollected quarter (counters.insert v (entry + 1)) rest

/-- Values voted at rank `maxVrnd`, with multiplicity and in message order. -/
def collectedValues (messages : List Phase1bMessage) (maxVrnd : Rank) : List (List Endpoint) :=
  ((messages.filter fun m => m.vrnd = some maxVrnd).filter fun m => !m.vval.isEmpty).map
    Phase1bMessage.vval

def firstNonEmpty (messages : List Phase1bMessage) : List Endpoint :=
  ((messages.filter fun m => !m.vval.isEmpty).map Phase1bMessage.vval).head?.getD []

def selectProposalFromMessages (messages : List Phase1bMessage) (n : Nat) : List Endpoint :=
  match (messages.filterMap Phase1bMessage.vrnd).max? with
  | none => []
  | some maxVrnd =>
      let collected := collectedValues messages maxVrnd
      if collected.toFinset.card = 1 then collected.head?.getD []
      else
        match scanCollected (n / 4) ∅ collected with
        | some v => v
        | none => firstNonEmpty messages

variable (self : Paxos)

def selectProposalUsingCoordinatorRule : List Endpoint :=
  selectProposalFromMessages self.phase1bMessages self.n

/-! ## Coordinator -/

def startPhase1a [Xxh64] (round : Int32) : Paxos × List PaxosOutgoing :=
  if self.crnd.round > round then (self, [])
  else
    let crnd : Rank := ⟨round, stableNodeIndex self.myAddr⟩
    let prepare : Phase1aMessage :=
      { configurationId := self.configurationId, sender := some self.myAddr, rank := some crnd }
    ({ self with crnd := crnd }, [.broadcast ⟨some (.phase1aMessage prepare)⟩])

def handlePhase1b (msg : Phase1bMessage) : Paxos × List PaxosOutgoing :=
  if msg.configurationId ≠ self.configurationId then (self, [])
  else
    match msg.rnd with
    | none => (self, [])
    | some rnd =>
        if compareRanks self.crnd rnd ≠ .eq then (self, [])
        else
          -- One list for all rounds; a sender may be in it several times.
          let self := { self with phase1bMessages := self.phase1bMessages ++ [msg] }
          if self.phase1bMessages.length ≤ self.n / 2 then (self, [])
          else
            let chosen := self.selectProposalUsingCoordinatorRule
            -- `cval` is set once: no later round resets it.
            if !self.cval.isEmpty || chosen.isEmpty then (self, [])
            else
              let phase2a : Phase2aMessage :=
                { sender := some self.myAddr, configurationId := self.configurationId
                  rnd := some self.crnd, vval := chosen }
              ({ self with cval := chosen }, [.broadcast ⟨some (.phase2aMessage phase2a)⟩])

/-! ## Acceptor -/

def handlePhase1a (msg : Phase1aMessage) : Paxos × List PaxosOutgoing :=
  if msg.configurationId ≠ self.configurationId then (self, [])
  else
    match msg.rank with
    | none => (self, [])
    | some rank =>
        if compareRanks self.rnd rank = .lt then
          let self := { self with rnd := rank }
          let response : Phase1bMessage :=
            { configurationId := self.configurationId, rnd := some self.rnd
              sender := some self.myAddr, vrnd := some self.vrnd, vval := self.vval }
          -- The promise is made also where there is nobody to answer.
          match msg.sender with
          | none => (self, [])
          | some sender => (self, [.unicast sender ⟨some (.phase1bMessage response)⟩])
        else (self, [])

def handlePhase2a (msg : Phase2aMessage) : Paxos × List PaxosOutgoing :=
  if msg.configurationId ≠ self.configurationId then (self, [])
  else
    match msg.rnd with
    | none => (self, [])
    | some rnd =>
        -- The round may be the promised one, but not one this acceptor has voted in.
        if compareRanks self.rnd rnd ≠ .gt ∧ self.vrnd ≠ rnd then
          let self := { self with rnd := rnd, vrnd := rnd, vval := msg.vval }
          let response : Phase2bMessage :=
            { configurationId := self.configurationId, rnd := some rnd
              sender := some self.myAddr, endpoints := self.vval }
          (self, [.broadcast ⟨some (.phase2bMessage response)⟩])
        else (self, [])

/-- The hook of the fast round: a vote at rank `(1, 1)`, unless a classic round was joined. -/
def registerFastRoundVote (vote : List Endpoint) : Paxos :=
  if self.rnd.round > 1 then self
  else { self with rnd := ⟨1, 1⟩, vrnd := ⟨1, 1⟩, vval := vote }

/-! ## Learner -/

def handlePhase2b (msg : Phase2bMessage) : Paxos × List PaxosOutgoing :=
  if msg.configurationId ≠ self.configurationId ∨ self.decided then (self, [])
  else
    match msg.rnd, msg.sender with
    | some rnd, some sender =>
        let bucket := ((self.acceptResponses.lookup rnd).getD ∅).insert sender msg
        let self := { self with acceptResponses := self.acceptResponses.insert rnd bucket }
        -- A majority of distinct senders; the value is the one of the last message.
        if bucket.keys.card > self.n / 2 then
          ({ self with decided := true }, [.decision msg.endpoints])
        else (self, [])
    | _, _ => (self, [])

/-- Delivery of a request to the matching handler; other requests are not for this machine. -/
def receive (request : RapidRequest) : Paxos × List PaxosOutgoing :=
  match request.content with
  | some (.phase1aMessage msg) => self.handlePhase1a msg
  | some (.phase1bMessage msg) => self.handlePhase1b msg
  | some (.phase2aMessage msg) => self.handlePhase2a msg
  | some (.phase2bMessage msg) => self.handlePhase2b msg
  | _ => (self, [])

end Paxos

end Rapid
