import Rapid.Consensus.FastPaxos

/-!
# Moves — what one call can do to a Paxos machine

`Paxos.Move` lists every way a call of a `Paxos` method changes the machine, with the guard that
was met and the effects emitted. It is proved complete once for each method; the safety arguments
then go by cases on the move and never unfold a handler.
-/

namespace Rapid

open Foundations

/-- What the environment may ask of a machine. -/
inductive PaxosCommand
  | registerFastRoundVote (vote : List Endpoint)
  | startPhase1a
  deriving DecidableEq

namespace Paxos

/-! ## The messages of a machine -/

section

variable (self : Paxos)

def promiseMessage (rank : Rank) : Phase1bMessage where
  configurationId := self.configurationId
  rnd := some rank
  sender := some self.myAddr
  vrnd := some self.vrnd
  vval := self.vval

def proposalMessage (chosen : List Endpoint) : Phase2aMessage where
  sender := some self.myAddr
  configurationId := self.configurationId
  rnd := some self.crnd
  vval := chosen

def voteMessage (rnd : Rank) (vval : List Endpoint) : Phase2bMessage where
  configurationId := self.configurationId
  rnd := some rnd
  sender := some self.myAddr
  endpoints := vval

/-- The votes recorded for `rnd` once `msg` is counted for `sender`. -/
def bucketAfter (rnd : Rank) (sender : Endpoint) (msg : Phase2bMessage) :
    Finmap fun _ : EndpointKey => Phase2bMessage :=
  ((self.acceptResponses.lookup rnd).getD ∅).insert sender msg

end

variable [Xxh64]

/-- The rank that belongs to the classic round 2 coordinated at `endpoint`. -/
def coordinatorRank (endpoint : Endpoint) : Rank :=
  ⟨2, stableNodeIndex endpoint⟩

def prepareMessage (self : Paxos) : Phase1aMessage where
  configurationId := self.configurationId
  sender := some self.myAddr
  rank := some (coordinatorRank self.myAddr)

/-! ## The moves -/

/-- `Move p input p' outs`: the call described by `input` takes `p` to `p'` and emits `outs`. -/
inductive Move : Paxos → PaxosCommand ⊕ RapidRequest → Paxos → List PaxosOutgoing → Prop
  | idle (p : Paxos) (input : PaxosCommand ⊕ RapidRequest) : Move p input p []
  | register (p : Paxos) (vote : List Endpoint) (hround : ¬ p.rnd.round > 1) :
      Move p (.inl (.registerFastRoundVote vote))
        { p with rnd := ⟨1, 1⟩, vrnd := ⟨1, 1⟩, vval := vote } []
  | prepare (p : Paxos) (hround : ¬ p.crnd.round > 2) :
      Move p (.inl .startPhase1a) { p with crnd := coordinatorRank p.myAddr }
        [.broadcast ⟨some (.phase1aMessage p.prepareMessage)⟩]
  | promiseSilent (p : Paxos) (m : Phase1aMessage) (rank : Rank) (hlt : p.rnd < rank)
      (hrank : m.rank = some rank) (hsender : m.sender = none) :
      Move p (.inr ⟨some (.phase1aMessage m)⟩) { p with rnd := rank } []
  | promise (p : Paxos) (m : Phase1aMessage) (rank : Rank) (sender : Endpoint)
      (hlt : p.rnd < rank) (hrank : m.rank = some rank) (hsender : m.sender = some sender) :
      Move p (.inr ⟨some (.phase1aMessage m)⟩) { p with rnd := rank }
        [.unicast sender ⟨some (.phase1bMessage (p.promiseMessage rank))⟩]
  | collect (p : Paxos) (m : Phase1bMessage) (hrnd : m.rnd = some p.crnd) :
      Move p (.inr ⟨some (.phase1bMessage m)⟩)
        { p with phase1bMessages := p.phase1bMessages ++ [m] } []
  | propose (p : Paxos) (m : Phase1bMessage) (chosen : List Endpoint)
      (hrnd : m.rnd = some p.crnd) (hquorum : p.n / 2 < (p.phase1bMessages ++ [m]).length)
      (hchosen : selectProposalFromMessages (p.phase1bMessages ++ [m]) p.n = chosen)
      (hne : chosen ≠ []) (hcval : p.cval = []) :
      Move p (.inr ⟨some (.phase1bMessage m)⟩)
        { p with phase1bMessages := p.phase1bMessages ++ [m], cval := chosen }
        [.broadcast ⟨some (.phase2aMessage (p.proposalMessage chosen))⟩]
  | accept (p : Paxos) (m : Phase2aMessage) (rnd : Rank) (hrnd : m.rnd = some rnd)
      (hle : p.rnd ≤ rnd) (hne : p.vrnd ≠ rnd) :
      Move p (.inr ⟨some (.phase2aMessage m)⟩)
        { p with rnd := rnd, vrnd := rnd, vval := m.vval }
        [.broadcast ⟨some (.phase2bMessage (p.voteMessage rnd m.vval))⟩]
  | learn (p : Paxos) (m : Phase2bMessage) (rnd : Rank) (sender : Endpoint)
      (hrnd : m.rnd = some rnd) (hsender : m.sender = some sender) :
      Move p (.inr ⟨some (.phase2bMessage m)⟩)
        { p with acceptResponses := p.acceptResponses.insert rnd (p.bucketAfter rnd sender m) } []
  | decide (p : Paxos) (m : Phase2bMessage) (rnd : Rank) (sender : Endpoint)
      (hrnd : m.rnd = some rnd) (hsender : m.sender = some sender) (hopen : p.decided = false)
      (hquorum : p.n / 2 < (p.bucketAfter rnd sender m).keys.card) :
      Move p (.inr ⟨some (.phase2bMessage m)⟩)
        { p with
          acceptResponses := p.acceptResponses.insert rnd (p.bucketAfter rnd sender m)
          decided := true }
        [.decision m.endpoints]

/-! ## Every call is a move -/

variable (p : Paxos)

theorem registerFastRoundVote_move (vote : List Endpoint) :
    Move p (.inl (.registerFastRoundVote vote)) (p.registerFastRoundVote vote) [] := by
  unfold registerFastRoundVote
  split
  · exact .idle p _
  · rename_i hround
    exact .register p vote hround

theorem startPhase1a_move :
    Move p (.inl .startPhase1a) (p.startPhase1a 2).1 (p.startPhase1a 2).2 := by
  unfold startPhase1a
  split
  · exact .idle p _
  · rename_i hround
    exact .prepare p hround

theorem handlePhase1a_move (m : Phase1aMessage) :
    Move p (.inr ⟨some (.phase1aMessage m)⟩) (p.handlePhase1a m).1 (p.handlePhase1a m).2 := by
  unfold handlePhase1a
  split
  · exact .idle p _
  · cases hrank : m.rank with
    | none => exact .idle p _
    | some rank =>
        by_cases hlt : p.rnd < rank
        · cases hsender : m.sender with
          | none =>
              simpa [hlt] using Move.promiseSilent p m rank hlt hrank hsender
          | some sender =>
              simpa [hlt, promiseMessage] using Move.promise p m rank sender hlt hrank hsender
        · simpa [hlt] using Move.idle p (.inr ⟨some (.phase1aMessage m)⟩)

theorem handlePhase1b_move (m : Phase1bMessage) :
    Move p (.inr ⟨some (.phase1bMessage m)⟩) (p.handlePhase1b m).1 (p.handlePhase1b m).2 := by
  unfold handlePhase1b
  split
  · exact .idle p _
  · cases hrnd : m.rnd with
    | none => exact .idle p _
    | some rnd =>
        by_cases heq : p.crnd = rnd
        · subst heq
          simp only [compareRanks_eq_eq, ne_eq, not_true_eq_false, if_false]
          split
          · exact .collect p m hrnd
          · rename_i hquorum
            split
            · exact .collect p m hrnd
            · rename_i hguard
              simp only [Bool.or_eq_true, Bool.not_eq_true', List.isEmpty_eq_false_iff,
                List.isEmpty_iff, not_or, not_not] at hguard
              exact .propose p m _ hrnd (Nat.lt_of_not_le hquorum) rfl hguard.2 hguard.1
        · simpa [heq] using Move.idle p (.inr ⟨some (.phase1bMessage m)⟩)

theorem handlePhase2a_move (m : Phase2aMessage) :
    Move p (.inr ⟨some (.phase2aMessage m)⟩) (p.handlePhase2a m).1 (p.handlePhase2a m).2 := by
  unfold handlePhase2a
  split
  · exact .idle p _
  · cases hrnd : m.rnd with
    | none => exact .idle p _
    | some rnd =>
        simp only [compareRanks_eq_gt, ne_eq, not_lt]
        split
        · rename_i hguard
          exact .accept p m rnd hrnd hguard.1 hguard.2
        · exact .idle p _

theorem handlePhase2b_move (m : Phase2bMessage) :
    Move p (.inr ⟨some (.phase2bMessage m)⟩) (p.handlePhase2b m).1 (p.handlePhase2b m).2 := by
  unfold handlePhase2b
  split
  · exact .idle p _
  · rename_i hopen
    have hdecided : p.decided = false := by
      simpa using (not_or.1 hopen).2
    cases hrnd : m.rnd with
    | none => exact .idle p _
    | some rnd =>
        cases hsender : m.sender with
        | none => exact .idle p _
        | some sender =>
            simp only
            split
            · rename_i hquorum
              exact .decide p m rnd sender hrnd hsender hdecided hquorum
            · exact .learn p m rnd sender hrnd hsender

theorem receive_move (request : RapidRequest) :
    Move p (.inr request) (p.receive request).1 (p.receive request).2 := by
  obtain ⟨content⟩ := request
  unfold receive
  cases content with
  | none => exact .idle p _
  | some content =>
      cases content with
      | phase1aMessage m => exact p.handlePhase1a_move m
      | phase1bMessage m => exact p.handlePhase1b_move m
      | phase2aMessage m => exact p.handlePhase2a_move m
      | phase2bMessage m => exact p.handlePhase2b_move m
      | _ => exact .idle p _

end Paxos

end Rapid
