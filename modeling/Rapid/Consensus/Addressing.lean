import Rapid.Consensus.FastAgreement
import Rapid.Consensus.OneConfiguration

/-!
# Addressing — messages at the wrong instance

A message may reach an instance that it was not sent to, of another configuration or of the same one.
Neither does anything: the first is refused by its configuration id, and the only messages that are
sent to a single instance are promises, which carry the rank of their coordinator. So it does not
matter that the network of `FastNetwork` delivers every message to its addressee.
-/

namespace Rapid

open Foundations

variable [Xxh64]

/-! ## Other configurations -/

/-- An instance whose classic machine has decided has decided. -/
def FastPaxos.Settled (p : FastPaxos) : Prop :=
  p.paxos.decided = true → p.decided = true

theorem FastPaxos.Move.settled {p p' : FastPaxos} {input : FastCommand ⊕ RapidRequest}
    {outs : List PaxosOutgoing} (h : FastPaxos.Move p input p' outs) (hp : p.Settled) : p'.Settled := by
  cases h with
  | idle => exact hp
  | propose jitter proposal =>
      intro hdecided
      refine hp ?_
      unfold Paxos.registerFastRoundVote at hdecided
      split at hdecided
      · exact hdecided
      · exact hdecided
  | startClassic =>
      intro hdecided
      refine hp ?_
      unfold Paxos.startPhase1a at hdecided
      split at hdecided
      · exact hdecided
      · exact hdecided
  | classic m =>
      intro hdecided
      exact Bool.or_eq_true_iff.2 (.inr hdecided)
  | count => exact hp
  | decide => exact fun _ => rfl

omit [Xxh64] in
/-- Where the classic machine does nothing, such an instance does nothing. -/
theorem FastPaxos.afterClassic_idle {p : FastPaxos} (hsettled : p.Settled)
    {r : Paxos × List PaxosOutgoing} (hidle : r = (p.paxos, [])) : p.afterClassic r = (p, []) := by
  have hdecided : (p.decided || p.paxos.decided) = p.decided := by
    cases hp : p.paxos.decided with
    | false => exact Bool.or_false _
    | true => rw [hsettled hp, Bool.or_true]
  unfold FastPaxos.afterClassic
  rw [hidle, hdecided]
  rfl

omit [Xxh64] in
/-- Such an instance does nothing with a message of another configuration. -/
theorem FastPaxos.handle_foreign {p : FastPaxos} {c : Int64} (hfor : p.For c) (hsettled : p.Settled)
    {request : RapidRequest} (hid : request.consensusId? ≠ some c) :
    p.handleConsensusMessage request = (p, []) := by
  have hclassic : p.paxos.receive request = (p.paxos, []) →
      p.afterClassic (p.paxos.receive request) = (p, []) := FastPaxos.afterClassic_idle hsettled
  cases hnone : request.consensusId? with
  | none => exact FastPaxos.handleConsensusMessage_of_none hnone
  | some d =>
      have hne : d ≠ c := fun heq => hid (hnone.trans (congrArg some heq))
      have hreceive : p.paxos.receive request = (p.paxos, []) :=
        p.paxos.receive_foreign hnone (hfor.classic ▸ hne)
      obtain ⟨content⟩ := request
      cases content with
      | none => rfl
      | some content =>
          cases content with
          | phase1aMessage msg => exact hclassic hreceive
          | phase1bMessage msg => exact hclassic hreceive
          | phase2aMessage msg => exact hclassic hreceive
          | phase2bMessage msg => exact hclassic hreceive
          | fastRoundPhase2bMessage msg =>
              cases hnone
              exact if_pos (.inl (hfor.fast ▸ hne))
          | _ => rfl

/-! ## Other instances -/

section Network

variable {N : Nat} {configurationId : Int64} {addr : Fin N → Endpoint} {delay : Fin N → Duration}
  {w : FastWorld N}

/-- A promise that was made to the coordinator of another instance. -/
def Astray (addr : Fin N → Endpoint) (j : Fin N) (request : RapidRequest) : Prop :=
  ∃ m k, request = ⟨some (.phase1bMessage m)⟩ ∧
    m.rnd = some (Paxos.coordinatorRank (addr k)) ∧ k ≠ j

/-- The rank of a prepare message is that of its sender. -/
structure Addressed (addr : Fin N → Endpoint) (w : FastWorld N) : Prop where
  settled : ∀ i, (w.nodes i).Settled
  prepares : ∀ m : Phase1aMessage, ⟨some (.phase1aMessage m)⟩ ∈ w.sent →
    ∃ k, m.sender = some (addr k) ∧ m.rank = some (Paxos.coordinatorRank (addr k))

theorem prepare_of_move {p p' : Paxos} {input : PaxosCommand ⊕ RapidRequest}
    {outs : List PaxosOutgoing} (hmove : Paxos.Move p input p' outs) {e : PaxosOutgoing}
    (he : e ∈ outs) {m : Phase1aMessage} (hm : e.message? = some ⟨some (.phase1aMessage m)⟩) :
    m.sender = some p.myAddr ∧ m.rank = some (Paxos.coordinatorRank p.myAddr) := by
  cases hmove with
  | prepare =>
      cases List.mem_singleton.1 he
      cases hm
      exact ⟨rfl, rfl⟩
  | idle => cases he
  | register => cases he
  | promiseSilent => cases he
  | collect => cases he
  | learn => cases he
  | promise =>
      cases List.mem_singleton.1 he
      cases hm
  | propose =>
      cases List.mem_singleton.1 he
      cases hm
  | accept =>
      cases List.mem_singleton.1 he
      cases hm
  | decide =>
      cases List.mem_singleton.1 he
      cases hm

theorem FastPaxos.prepare_of_move {p p' : FastPaxos} {input : FastCommand ⊕ RapidRequest}
    {outs : List PaxosOutgoing} (hmove : FastPaxos.Move p input p' outs) {e : PaxosOutgoing}
    (he : e ∈ outs) {m : Phase1aMessage} (hm : e.message? = some ⟨some (.phase1aMessage m)⟩) :
    m.sender = some p.paxos.myAddr ∧ m.rank = some (Paxos.coordinatorRank p.paxos.myAddr) := by
  cases hmove with
  | startClassic => exact Rapid.prepare_of_move p.paxos.startPhase1a_move he hm
  | classic m' => exact Rapid.prepare_of_move (p.paxos.receive_move m') he hm
  | idle => cases he
  | count => cases he
  | propose =>
      cases List.mem_singleton.1 he
      cases hm
  | decide =>
      cases List.mem_singleton.1 he
      cases hm

/-- The only message to a single instance is a promise, which answers a prepare message. -/
theorem unicast_of_move {p p' : Paxos} {input : PaxosCommand ⊕ RapidRequest}
    {outs : List PaxosOutgoing} (hmove : Paxos.Move p input p' outs) {target : Endpoint}
    {request : RapidRequest} (he : .unicast target request ∈ outs) :
    ∃ (prepare : Phase1aMessage) (promise : Phase1bMessage),
      input = .inr ⟨some (.phase1aMessage prepare)⟩ ∧ prepare.sender = some target ∧
        request = ⟨some (.phase1bMessage promise)⟩ ∧ promise.rnd = prepare.rank := by
  cases hmove with
  | promise m rank sender hlt hrank hsender =>
      cases List.mem_singleton.1 he
      exact ⟨m, _, rfl, hsender, rfl, hrank.symm⟩
  | idle => cases he
  | register => cases he
  | promiseSilent => cases he
  | collect => cases he
  | learn => cases he
  | prepare => cases List.mem_singleton.1 he
  | propose => cases List.mem_singleton.1 he
  | accept => cases List.mem_singleton.1 he
  | decide => cases List.mem_singleton.1 he

theorem FastPaxos.unicast_of_move {p p' : FastPaxos} {input : FastCommand ⊕ RapidRequest}
    {outs : List PaxosOutgoing} (hmove : FastPaxos.Move p input p' outs) {target : Endpoint}
    {request : RapidRequest} (he : .unicast target request ∈ outs) :
    ∃ (prepare : Phase1aMessage) (promise : Phase1bMessage),
      input = .inr ⟨some (.phase1aMessage prepare)⟩ ∧ prepare.sender = some target ∧
        request = ⟨some (.phase1bMessage promise)⟩ ∧ promise.rnd = prepare.rank := by
  cases hmove with
  | classic m' =>
      rcases Rapid.unicast_of_move (p.paxos.receive_move m') he with
        ⟨prepare, promise, hinput, hrest⟩
      cases hinput
      exact ⟨prepare, promise, rfl, hrest⟩
  | startClassic =>
      rcases Rapid.unicast_of_move p.paxos.startPhase1a_move he with ⟨prepare, promise, hinput, _⟩
      cases hinput
  | idle => cases he
  | count => cases he
  | propose => cases List.mem_singleton.1 he
  | decide => cases List.mem_singleton.1 he

/-- Instances of the network sign with their address. -/
theorem paxos_myAddr {ok : FastWorld N → NetAction N RapidRequest FastCommand → Prop}
    (hinj : Function.Injective addr)
    (hw : (fastNetwork configurationId addr delay).system.Reaches ok w) (i : Fin N) :
    (w.nodes i).paxos.myAddr = addr i := by
  rcases Refines.reaches hw with ⟨t, ht, hR⟩
  have hnode : t.nodes i = (w.nodes i).paxos := congrFun hR.nodes i
  rw [← hnode]
  exact ((ClassicInv.reaches hinj ht).node i).myAddr

theorem Addressed.reaches {ok : FastWorld N → NetAction N RapidRequest FastCommand → Prop}
    (hinj : Function.Injective addr)
    (hw : (fastNetwork configurationId addr delay).system.Reaches ok w) : Addressed addr w := by
  refine hw.invariant ?_ ?_
  · intro w hw
    rw [show w = (fastNetwork configurationId addr delay).initial from hw]
    exact ⟨fun i hdecided => (by cases hdecided), fun m hm => (by cases hm)⟩
  · intro w a w' hw h _ hstep
    rcases Protocol.step_cases hstep with ⟨i, input, _, _, rfl⟩ | ⟨j, m, _, _, rfl⟩
    · have hmove := fast_react_move configurationId addr delay (w := w) i input
      have hreacted := Protocol.reacted (fastNetwork configurationId addr delay) w i input
        ((fastNetwork configurationId addr delay).react (w.nodes i) input)
      refine ⟨hreacted.nodes (Q := fun _ p => p.Settled) (hmove.settled (h.settled i)) h.settled, ?_⟩
      intro m hm
      rcases (hreacted.sent _).1 hm with hold | ⟨e, he, hmessage⟩
      · exact h.prepares m hold
      · rcases FastPaxos.prepare_of_move hmove he hmessage with ⟨hsender, hrank⟩
        rw [paxos_myAddr hinj hw] at hsender hrank
        exact ⟨i, hsender, hrank⟩
    · exact ⟨h.settled, h.prepares⟩

/-- Every message of a reaction goes to an instance, or would be ignored there. -/
theorem addressed_of_react {ok : FastWorld N → NetAction N RapidRequest FastCommand → Prop}
    (hinj : Function.Injective addr)
    (hw : (fastNetwork configurationId addr delay).system.Reaches ok w) {i : Fin N}
    {input : FastCommand ⊕ RapidRequest}
    (havail : (fastNetwork configurationId addr delay).Available w i input) :
    ∀ e ∈ ((fastNetwork configurationId addr delay).react (w.nodes i) input).2,
      ∀ request, e.message? = some request →
        ∀ j, (j, request) ∈ e.copies addr ∨ Astray addr j request := by
  intro e he request hrequest j
  cases e with
  | decision v => cases hrequest
  | broadcast m =>
      cases hrequest
      exact .inl (List.mem_map.2 ⟨j, List.mem_finRange j, rfl⟩)
  | unicast target m =>
      cases hrequest
      rcases FastPaxos.unicast_of_move (fast_react_move configurationId addr delay i input) he with
        ⟨prepare, promise, rfl, htarget, rfl, hrnd⟩
      have hsent := Protocol.inflight_sent hw _ havail
      rcases (Addressed.reaches hinj hw).prepares prepare hsent with ⟨k, hsender, hrank⟩
      by_cases hkj : k = j
      · subst hkj
        have haddr : addr k = target := Option.some.inj (hsender.symm.trans htarget)
        refine .inl (List.mem_map.2 ⟨k, List.mem_filter.2 ⟨List.mem_finRange k, ?_⟩, rfl⟩)
        exact decide_eq_true haddr
      · exact .inr ⟨promise, k, rfl, hrnd.trans hrank, hkj⟩

/-- An instance does nothing with the promise that was made to another one. -/
theorem react_astray {ok : FastWorld N → NetAction N RapidRequest FastCommand → Prop}
    (hindex : Function.Injective fun i => stableNodeIndex (addr i))
    (hw : (fastNetwork configurationId addr delay).system.Reaches ok w) {j : Fin N}
    {request : RapidRequest} (h : Astray addr j request) :
    (fastNetwork configurationId addr delay).react (w.nodes j) (.inr request) = (w.nodes j, []) := by
  have hinj : Function.Injective addr := fun i k hik => hindex (congrArg stableNodeIndex hik)
  rcases h with ⟨m, k, rfl, hrnd, hkj⟩
  rcases Refines.reaches hw with ⟨t, ht, hR⟩
  have hnode : t.nodes j = (w.nodes j).paxos := congrFun hR.nodes j
  have hcrnd := ((ClassicInv.reaches hinj ht).node j).crnd
  rw [hnode] at hcrnd
  -- The instance coordinates its own rank, if any.
  have hother : (w.nodes j).paxos.crnd ≠ Paxos.coordinatorRank (addr k) := by
    intro heq
    rcases hcrnd with hzero | hown
    · rw [hzero] at heq
      have hround : (0 : Int32) = 2 := congrArg Rank.round heq
      exact absurd hround (by decide)
    · have hsame : stableNodeIndex (addr j) = stableNodeIndex (addr k) :=
        congrArg Rank.nodeIndex (hown.symm.trans heq)
      exact hkj (hindex hsame).symm
  have hidle : (w.nodes j).paxos.handlePhase1b m = ((w.nodes j).paxos, []) := by
    unfold Paxos.handlePhase1b
    rw [hrnd]
    split
    · rfl
    · exact if_pos fun heq => hother (compareRanks_eq_eq.1 heq)
  have hcall : (w.nodes j).handleConsensusMessage ⟨some (.phase1bMessage m)⟩ = (w.nodes j, []) :=
    FastPaxos.afterClassic_idle ((Addressed.reaches hinj hw).settled j) hidle
  show FastPaxos.visible ((w.nodes j).handleConsensusMessage ⟨some (.phase1bMessage m)⟩) = _
  rw [hcall]
  rfl

end Network

end Rapid
