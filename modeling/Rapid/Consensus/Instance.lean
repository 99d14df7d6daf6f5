import Rapid.Consensus.FastNetwork
import Rapid.Foundations.Transition

/-!
# Instance — one FastPaxos instance under every sequence of calls

The other modules of this folder study `N` instances that talk to each other. Here one instance is
alone with its environment, which calls `propose`, `start_classic_round` and
`handle_consensus_message` in any order and makes up the messages as it likes.

The run keeps a history: for each call the instance before it and what the call emitted. What is
said about a run is said about its history.
-/

namespace Rapid

open Foundations

variable [Xxh64]

/-- What a caller may do with an instance: `propose` and `start_classic_round` on the left, a request
for `handle_consensus_message` on the right. -/
abbrev InstanceCall := FastCommand ⊕ RapidRequest

def FastPaxos.call (p : FastPaxos) : InstanceCall → FastPaxos × List FastOutgoing
  | .inl command => p.run command
  | .inr request => p.handleConsensusMessage request

/-- The instance after a call. -/
def FastPaxos.afterCall (p : FastPaxos) (c : InstanceCall) : FastPaxos :=
  (FastPaxos.visible (p.call c)).1

/-- What a call sends and decides; the timer that `propose` asks for is not part of it. -/
def FastPaxos.emits (p : FastPaxos) (c : InstanceCall) : List PaxosOutgoing :=
  (FastPaxos.visible (p.call c)).2

theorem FastPaxos.call_move (p : FastPaxos) (c : InstanceCall) :
    FastPaxos.Move p c (p.afterCall c) (p.emits c) := by
  cases c with
  | inl command => exact p.run_move command
  | inr request => exact p.handleConsensusMessage_move request

/-! ## Histories -/

/-- One call of a run. -/
structure CallRecord where
  before : FastPaxos
  call : InstanceCall
  emitted : List PaxosOutgoing

structure InstanceRun where
  self : FastPaxos
  history : List CallRecord

/-- Everything emitted in a history, in the order of emission. -/
def emissions (history : List CallRecord) : List PaxosOutgoing :=
  history.flatMap CallRecord.emitted

omit [Xxh64] in
@[simp] theorem emissions_nil : emissions [] = [] := rfl

omit [Xxh64] in
@[simp] theorem emissions_append (history : List CallRecord) (r : CallRecord) :
    emissions (history ++ [r]) = emissions history ++ r.emitted := by
  simp [emissions]

/-! ## The system -/

def instanceSystem (addr : Endpoint) (configurationId : Int64) (membershipSize : Nat)
    (delay : Duration) : System InstanceRun InstanceCall where
  init r := r = ⟨FastPaxos.new addr configurationId membershipSize delay, []⟩
  step r c := some ⟨r.self.afterCall c, r.history ++ [⟨r.self, c, r.self.emits c⟩]⟩

end Rapid
