import Rapid.Consensus.Moves
import Rapid.Consensus.CoordinatorRule
import Rapid.Foundations.Voting

/-!
# ClassicNetwork — N Paxos machines over a lossy network

The closed system of `N` machines of one configuration, the invariant its runs maintain, and the
voting record it induces. The invariant speaks about the messages ever sent:

* a promise reports the highest vote its sender cast below the promised rank, and the sender
  casts none below it afterwards;
* a proposal rests on the promises of more than `N / 2` distinct acceptors for its rank.
-/

namespace Rapid

open Foundations

variable [Xxh64] {N : Nat}

/-! ## The system -/

def Paxos.run (p : Paxos) : PaxosCommand → Paxos × List PaxosOutgoing
  | .registerFastRoundVote vote => (p.registerFastRoundVote vote, [])
  | .startPhase1a => p.startPhase1a 2

theorem Paxos.run_move (p : Paxos) (c : PaxosCommand) :
    Paxos.Move p (.inl c) (p.run c).1 (p.run c).2 := by
  cases c with
  | registerFastRoundVote vote => exact p.registerFastRoundVote_move vote
  | startPhase1a => exact p.startPhase1a_move

abbrev ClassicWorld (N : Nat) := World N Paxos RapidRequest (List Endpoint) PaxosCommand

/-- `N` instances of one configuration: votes may be registered at any moment, every instance
starts its classic round at most once. -/
def classicNetwork (configurationId : Int64) (addr : Fin N → Endpoint) :
    Protocol N Endpoint Paxos RapidRequest (List Endpoint) PaxosCommand where
  addr := addr
  boot i := Paxos.new (addr i) configurationId N
  handle p request := p.receive request
  command p c := p.run c
  enabled issued i c :=
    match c with
    | .registerFastRoundVote _ => true
    | .startPhase1a => !issued.contains (i, .startPhase1a)

/-! ## Votes and proposals on the wire -/

/-- The rank of the fast round. Every classic round has a higher one. -/
def fastRank : Rank := ⟨1, 1⟩

omit [Xxh64] in
theorem fastRank_lt {r : Rank} (h : r.round > 1) : fastRank < r :=
  Rank.lt_iff.2 (.inl h)

theorem one_lt_round_coordinatorRank (e : Endpoint) : (Paxos.coordinatorRank e).round > 1 :=
  show (2 : Int32) > 1 by decide

section Wire

variable (addr : Fin N → Endpoint) (sent : List RapidRequest)

/-- Acceptor `a` has voted for `v` at the classic rank `r`. -/
def Voted (a : Fin N) (r : Rank) (v : List Endpoint) : Prop :=
  ∃ m : Phase2bMessage, ⟨some (.phase2bMessage m)⟩ ∈ sent ∧
    m.sender = some (addr a) ∧ m.rnd = some r ∧ m.endpoints = v

/-- The coordinator of rank `r` has proposed `v`. -/
def Proposed (r : Rank) (v : List Endpoint) : Prop :=
  ∃ m : Phase2aMessage, ⟨some (.phase2aMessage m)⟩ ∈ sent ∧ m.rnd = some r ∧ m.vval = v

/-- The promises a proposal rests on: more than `N / 2` from distinct senders, all for rank `r`. -/
structure Evidence (N : Nat) (quorum : List Phase1bMessage) (r : Rank) (v : List Endpoint) :
    Prop where
  sent : ∀ m ∈ quorum, ⟨some (.phase1bMessage m)⟩ ∈ sent
  rank : ∀ m ∈ quorum, m.rnd = some r
  distinct : (quorum.map Phase1bMessage.sender).Nodup
  large : N / 2 < quorum.length
  rule : Paxos.selectProposalFromMessages quorum N = v

/-- What a promise for rank `r` says about its sender `a`, with `nodes` the current machines. -/
structure Promise (nodes : Fin N → Paxos) (m : Phase1bMessage) (a : Fin N) (r vr : Rank) :
    Prop where
  sender : m.sender = some (addr a)
  rnd : m.rnd = some r
  vrnd : m.vrnd = some vr
  classic : fastRank < r
  below : vr < r
  kept : r ≤ (nodes a).rnd
  inherited : fastRank < vr → Proposed sent vr m.vval
  complete : ∀ k u, Voted addr sent a k u → k < r → k ≤ vr

/-- A classic decision for `v`: a majority voted at one rank, and a vote there carries `v`. -/
def DecidedAt (N : Nat) (v : List Endpoint) : Prop :=
  ∃ (r : Rank) (S : Finset Endpoint), N / 2 < S.card ∧
    (∀ s ∈ S, ∃ m : Phase2bMessage,
      ⟨some (.phase2bMessage m)⟩ ∈ sent ∧ m.rnd = some r ∧ m.sender = some s) ∧
    ∃ m : Phase2bMessage, ⟨some (.phase2bMessage m)⟩ ∈ sent ∧ m.rnd = some r ∧ m.endpoints = v

end Wire

/-! ## The invariant -/

section Invariant

variable (addr : Fin N → Endpoint) (sent : List RapidRequest)

/-- What holds of machine `i` alone, relative to the messages sent so far. -/
structure NodeInv (i : Fin N) (p : Paxos) : Prop where
  myAddr : p.myAddr = addr i
  size : p.n = N
  crnd : p.crnd = ⟨0, 0⟩ ∨ p.crnd = Paxos.coordinatorRank (addr i)
  voteBelow : p.vrnd ≤ p.rnd
  rounds : p.rnd.round > 1 ∨ p.rnd ≤ fastRank
  inherited : fastRank < p.vrnd → Proposed sent p.vrnd p.vval
  collected : ∀ m ∈ p.phase1bMessages,
    ⟨some (.phase1bMessage m)⟩ ∈ sent ∧ m.rnd = some p.crnd
  buckets : ∀ r b, p.acceptResponses.lookup r = some b → ∀ s m, b.lookup s = some m →
    ⟨some (.phase2bMessage m)⟩ ∈ sent ∧ m.rnd = some r ∧ m.sender = some s

/-- What holds of a message sent, relative to the machines. -/
def WireOk (nodes : Fin N → Paxos) (request : RapidRequest) : Prop :=
  match request.content with
  | some (.phase1aMessage m) => ∃ i, m.rank = some (Paxos.coordinatorRank (addr i))
  | some (.phase1bMessage m) => ∃ a r vr, Promise addr sent nodes m a r vr
  | some (.phase2aMessage m) =>
      ∃ i, m.rnd = some (Paxos.coordinatorRank (addr i)) ∧
        (nodes i).crnd = Paxos.coordinatorRank (addr i) ∧ (nodes i).cval = m.vval ∧ m.vval ≠ [] ∧
        ∃ quorum, Evidence sent N quorum (Paxos.coordinatorRank (addr i)) m.vval
  | some (.phase2bMessage m) =>
      ∃ a r, m.sender = some (addr a) ∧ m.rnd = some r ∧ fastRank < r ∧ r ≤ (nodes a).vrnd ∧
        Proposed sent r m.endpoints
  | _ => True

def phase1b? (request : RapidRequest) : Option Phase1bMessage :=
  match request.content with
  | some (.phase1bMessage m) => some m
  | _ => none

/-- The promises that coordinator `i` holds or may still receive. -/
def promisesFor (w : ClassicWorld N) (i : Fin N) : List Phase1bMessage :=
  (w.nodes i).phase1bMessages ++ (arriving w.inflight i).filterMap phase1b?

structure ClassicInv (w : ClassicWorld N) : Prop where
  node : ∀ i, NodeInv addr w.sent i (w.nodes i)
  wire : ∀ request ∈ w.sent, WireOk addr w.sent w.nodes request
  distinct : ∀ i, ((promisesFor w i).map fun m => (m.sender, m.rnd)).Nodup
  decided : ∀ d ∈ w.decisions, DecidedAt w.sent N d.2

end Invariant

/-! ## What a move preserves -/

section Preservation

variable {addr : Fin N → Endpoint} {sent sent' : List RapidRequest}

omit [Xxh64] in
theorem Proposed.mono (hsub : sent ⊆ sent') {r : Rank} {v : List Endpoint}
    (h : Proposed sent r v) : Proposed sent' r v := by
  rcases h with ⟨m, hm, hrest⟩
  exact ⟨m, hsub hm, hrest⟩

omit [Xxh64] in
theorem Evidence.mono (hsub : sent ⊆ sent') {quorum : List Phase1bMessage} {r : Rank}
    {v : List Endpoint} (h : Evidence sent N quorum r v) : Evidence sent' N quorum r v :=
  { h with sent := fun m hm => hsub (h.sent m hm) }

omit [Xxh64] in
theorem DecidedAt.mono (hsub : sent ⊆ sent') {v : List Endpoint} (h : DecidedAt sent N v) :
    DecidedAt sent' N v := by
  rcases h with ⟨r, S, hcard, hS, m, hm, hrest⟩
  refine ⟨r, S, hcard, ?_, m, hsub hm, hrest⟩
  intro s hs
  rcases hS s hs with ⟨m', hm', hrest'⟩
  exact ⟨m', hsub hm', hrest'⟩

theorem NodeInv.mono (hsub : sent ⊆ sent') {i : Fin N} {p : Paxos} (h : NodeInv addr sent i p) :
    NodeInv addr sent' i p :=
  { h with
    inherited := fun hlt => (h.inherited hlt).mono hsub
    collected := fun m hm => ⟨hsub (h.collected m hm).1, (h.collected m hm).2⟩
    buckets := fun r b hb s m hm => ⟨hsub (h.buckets r b hb s m hm).1, (h.buckets r b hb s m hm).2⟩ }

/-- How a machine whose own coordinator rank is `own` may change: ranks only grow, and the round
and value of a coordinator are fixed once set. -/
structure Advances (own : Rank) (p p' : Paxos) : Prop where
  rnd : p.rnd ≤ p'.rnd
  vrnd : p.vrnd ≤ p'.vrnd
  crnd : p.crnd = own → p'.crnd = own
  cval : p.cval ≠ [] → p'.cval = p.cval

omit [Xxh64] in
theorem Advances.refl (own : Rank) (p : Paxos) : Advances own p p :=
  ⟨le_refl _, le_refl _, id, fun _ => rfl⟩

theorem NodeInv.advances {i : Fin N} {p p' : Paxos} {input : PaxosCommand ⊕ RapidRequest}
    {outs : List PaxosOutgoing} (hp : NodeInv addr sent i p) (hmove : Paxos.Move p input p' outs) :
    Advances (Paxos.coordinatorRank (addr i)) p p' := by
  cases hmove with
  | idle => exact .refl _ _
  | register vote hround =>
      have hfast : p.rnd ≤ fastRank := hp.rounds.resolve_left hround
      exact ⟨hfast, le_trans hp.voteBelow hfast, id, fun _ => rfl⟩
  | prepare hround =>
      refine ⟨le_refl _, le_refl _, ?_, fun _ => rfl⟩
      intro _
      rw [hp.myAddr]
  | promiseSilent m rank hlt => exact ⟨le_of_lt hlt, le_refl _, id, fun _ => rfl⟩
  | promise m rank sender hlt => exact ⟨le_of_lt hlt, le_refl _, id, fun _ => rfl⟩
  | collect => exact ⟨le_refl _, le_refl _, id, fun _ => rfl⟩
  | propose m chosen hrnd hquorum hchosen hne hcval =>
      exact ⟨le_refl _, le_refl _, id, fun h => absurd hcval h⟩
  | accept m rnd hrnd hle hne =>
      exact ⟨hle, le_trans hp.voteBelow hle, id, fun _ => rfl⟩
  | learn => exact ⟨le_refl _, le_refl _, id, fun _ => rfl⟩
  | decide => exact ⟨le_refl _, le_refl _, id, fun _ => rfl⟩

/-- Messages sent before a step stay justified, provided every new vote is cast at a rank the
voter had not promised away. -/
theorem WireOk.persist {nodes nodes' : Fin N → Paxos} {request : RapidRequest}
    (h : WireOk addr sent nodes request) (hsub : sent ⊆ sent')
    (hadv : ∀ i, Advances (Paxos.coordinatorRank (addr i)) (nodes i) (nodes' i))
    (hvotes : ∀ a k u, Voted addr sent' a k u → Voted addr sent a k u ∨ (nodes a).rnd ≤ k) :
    WireOk addr sent' nodes' request := by
  obtain ⟨content⟩ := request
  cases content with
  | none => trivial
  | some content =>
      cases content with
      | phase1aMessage m => exact h
      | phase1bMessage m =>
          rcases h with ⟨a, r, vr, hm⟩
          refine ⟨a, r, vr, { hm with
            kept := le_trans hm.kept (hadv a).rnd
            inherited := fun hvr => (hm.inherited hvr).mono hsub
            complete := ?_ }⟩
          intro k u hvoted hlt
          -- A vote that is new was cast at or above the promise, too late to be in it.
          rcases hvotes a k u hvoted with hold | hnew
          · exact hm.complete k u hold hlt
          · exact absurd (lt_of_lt_of_le hlt hm.kept) (not_lt.2 hnew)
      | phase2aMessage m =>
          rcases h with ⟨i, hrnd, hcrnd, hcval, hne, quorum, hquorum⟩
          -- A coordinator that has chosen a value keeps it in this round.
          have hfixed : (nodes' i).cval = (nodes i).cval := (hadv i).cval (by rw [hcval]; exact hne)
          exact ⟨i, hrnd, (hadv i).crnd hcrnd, hfixed.trans hcval, hne, quorum, hquorum.mono hsub⟩
      | phase2bMessage m =>
          rcases h with ⟨a, r, hsender, hrnd, hfast, hle, hprop⟩
          exact ⟨a, r, hsender, hrnd, hfast, le_trans hle (hadv a).vrnd, hprop.mono hsub⟩
      | _ => trivial

/-! ## The messages of a move -/

variable {nodes nodes' : Fin N → Paxos}

theorem WireOk.fastRank_lt_promise {m : Phase1bMessage} {r : Rank}
    (hm : WireOk addr sent nodes ⟨some (.phase1bMessage m)⟩) (hr : m.rnd = some r) :
    fastRank < r := by
  rcases hm with ⟨a, r', vr, hpromise⟩
  have heq : r' = r := Option.some.inj (hpromise.rnd.symm.trans hr)
  exact heq ▸ hpromise.classic

theorem WireOk.one_lt_round_of_prepare {m : Phase1aMessage} {r : Rank}
    (hm : WireOk addr sent nodes ⟨some (.phase1aMessage m)⟩) (hr : m.rank = some r) :
    r.round > 1 := by
  rcases hm with ⟨i, hrank⟩
  have heq : Paxos.coordinatorRank (addr i) = r := Option.some.inj (hrank.symm.trans hr)
  exact heq ▸ one_lt_round_coordinatorRank (addr i)

theorem WireOk.one_lt_round_of_proposal {m : Phase2aMessage} {r : Rank}
    (hm : WireOk addr sent nodes ⟨some (.phase2aMessage m)⟩) (hr : m.rnd = some r) :
    r.round > 1 := by
  rcases hm with ⟨i, hrnd, _⟩
  have heq : Paxos.coordinatorRank (addr i) = r := Option.some.inj (hrnd.symm.trans hr)
  exact heq ▸ one_lt_round_coordinatorRank (addr i)

/-- A vote leaves a machine only at a rank it has not promised away. -/
theorem vote_of_move {p p' : Paxos} {input : PaxosCommand ⊕ RapidRequest}
    {outs : List PaxosOutgoing} (hmove : Paxos.Move p input p' outs) {e : PaxosOutgoing}
    (he : e ∈ outs) {m : Phase2bMessage} (hm : e.message? = some ⟨some (.phase2bMessage m)⟩) :
    m.sender = some p.myAddr ∧ ∃ r, m.rnd = some r ∧ p.rnd ≤ r := by
  cases hmove with
  | accept m' rnd hrnd hle hne =>
      rcases List.mem_singleton.1 he with rfl
      cases hm
      exact ⟨rfl, rnd, rfl, hle⟩
  | idle => cases he
  | register => cases he
  | promiseSilent => cases he
  | collect => cases he
  | learn => cases he
  | prepare =>
      rcases List.mem_singleton.1 he with rfl
      cases hm
  | promise =>
      rcases List.mem_singleton.1 he with rfl
      cases hm
  | propose =>
      rcases List.mem_singleton.1 he with rfl
      cases hm
  | decide =>
      rcases List.mem_singleton.1 he with rfl
      cases hm

/-- The machine's own invariant survives a move on a justified input. -/
theorem NodeInv.move {i : Fin N} {p p' : Paxos} {input : PaxosCommand ⊕ RapidRequest}
    {outs : List PaxosOutgoing} (hp : NodeInv addr sent i p) (hmove : Paxos.Move p input p' outs)
    (hsub : sent ⊆ sent') (hin : ∀ m, input = .inr m → m ∈ sent)
    (hwire : ∀ request ∈ sent, WireOk addr sent nodes request) : NodeInv addr sent' i p' := by
  have hq : NodeInv addr sent' i p := hp.mono hsub
  -- A promise that is collected was delivered.
  have hcollect : ∀ m : Phase1bMessage, m.rnd = some p.crnd →
      input = .inr ⟨some (.phase1bMessage m)⟩ → ∀ m' ∈ p.phase1bMessages ++ [m],
        ⟨some (.phase1bMessage m')⟩ ∈ sent' ∧ m'.rnd = some p.crnd := by
    intro m hrnd heq m' hm'
    rcases List.mem_append.1 hm' with hold | hnew
    · exact hq.collected m' hold
    · rcases List.mem_singleton.1 hnew with rfl
      exact ⟨hsub (hin _ heq), hrnd⟩
  -- A vote that is learned was delivered, and files under its rank and sender.
  have hlearn : ∀ (m : Phase2bMessage) (rnd : Rank) (sender : Endpoint), m.rnd = some rnd →
      m.sender = some sender → input = .inr ⟨some (.phase2bMessage m)⟩ →
      ∀ r b, (p.acceptResponses.insert rnd (p.bucketAfter rnd sender m)).lookup r = some b →
        ∀ s m', b.lookup s = some m' →
          ⟨some (.phase2bMessage m')⟩ ∈ sent' ∧ m'.rnd = some r ∧ m'.sender = some s := by
    intro m rnd sender hrnd hsender heq r b hb s m' hm'
    by_cases hr : r = rnd
    · subst hr
      rw [Finmap.lookup_insert] at hb
      cases hb
      by_cases hs : s = sender
      · subst hs
        rw [Paxos.bucketAfter, Finmap.lookup_insert] at hm'
        cases hm'
        exact ⟨hsub (hin _ heq), hrnd, hsender⟩
      · rw [Paxos.bucketAfter, Finmap.lookup_insert_of_ne _ hs] at hm'
        cases hl : p.acceptResponses.lookup r with
        | none =>
            rw [hl] at hm'
            cases hm'
        | some b =>
            rw [hl] at hm'
            exact hq.buckets r b hl s m' hm'
    · rw [Finmap.lookup_insert_of_ne _ hr] at hb
      exact hq.buckets r b hb s m' hm'
  cases hmove with
  | idle => exact hq
  | register vote hround =>
      refine { hq with
        voteBelow := le_refl _
        rounds := .inr (le_refl _)
        inherited := fun h => absurd h (lt_irrefl _) }
  | prepare hround =>
      refine { hq with
        crnd := .inr (by rw [hp.myAddr])
        collected := ?_ }
      -- Promises are collected only for the machine's own rank, so there are none before it.
      rcases hp.crnd with hzero | hown
      · intro m hm
        have hlt : fastRank < (⟨0, 0⟩ : Rank) :=
          (hwire _ (hp.collected m hm).1).fastRank_lt_promise (hzero ▸ (hp.collected m hm).2)
        exact absurd hlt (by decide)
      · rw [hp.myAddr, ← hown]
        exact hq.collected
  | promiseSilent m rank hlt hrank hsender =>
      refine { hq with
        voteBelow := le_trans hp.voteBelow (le_of_lt hlt)
        rounds := .inl ((hwire _ (hin _ rfl)).one_lt_round_of_prepare hrank) }
  | promise m rank sender hlt hrank hsender =>
      refine { hq with
        voteBelow := le_trans hp.voteBelow (le_of_lt hlt)
        rounds := .inl ((hwire _ (hin _ rfl)).one_lt_round_of_prepare hrank) }
  | collect m hrnd =>
      exact { hq with
        collected := hcollect m hrnd rfl }
  | propose m chosen hrnd hquorum hchosen hne hcval =>
      exact { hq with
        collected := hcollect m hrnd rfl }
  | accept m rnd hrnd hle hne =>
      exact { hq with
        voteBelow := le_refl _
        rounds := .inl ((hwire _ (hin _ rfl)).one_lt_round_of_proposal hrnd)
        inherited := fun _ => ⟨m, hsub (hin _ rfl), hrnd, rfl⟩ }
  | learn m rnd sender hrnd hsender =>
      exact { hq with
        buckets := hlearn m rnd sender hrnd hsender rfl }
  | decide m rnd sender hrnd hsender hopen hquorum =>
      exact { hq with
        buckets := hlearn m rnd sender hrnd hsender rfl }

/-- Every message of a move on a justified input is justified. -/
theorem WireOk.emitted {i : Fin N} {p' : Paxos} {input : PaxosCommand ⊕ RapidRequest}
    {outs : List PaxosOutgoing} (hinj : Function.Injective addr)
    (hp : NodeInv addr sent i (nodes i)) (hmove : Paxos.Move (nodes i) input p' outs)
    (hself : nodes' i = p') (hsub : sent ⊆ sent')
    (hnew : ∀ r ∈ sent', r ∈ sent ∨ ∃ e ∈ outs, e.message? = some r)
    (hin : ∀ m, input = .inr m → m ∈ sent)
    (hwire : ∀ request ∈ sent, WireOk addr sent nodes request)
    (hdistinct : ∀ m, input = .inr ⟨some (.phase1bMessage m)⟩ →
      m.rnd = some (nodes i).crnd →
        (((nodes i).phase1bMessages ++ [m]).map Phase1bMessage.sender).Nodup)
    {e : PaxosOutgoing} (he : e ∈ outs) {request : RapidRequest}
    (hr : e.message? = some request) : WireOk addr sent' nodes' request := by
  cases hmove with
  | idle => cases he
  | register => cases he
  | promiseSilent => cases he
  | collect => cases he
  | learn => cases he
  | prepare hround =>
      rcases List.mem_singleton.1 he with rfl
      cases hr
      exact ⟨i, by rw [← hp.myAddr]; rfl⟩
  | promise m rank sender hlt hrank hsender =>
      rcases List.mem_singleton.1 he with rfl
      cases hr
      refine ⟨i, rank, (nodes i).vrnd, {
        sender := by rw [← hp.myAddr]; rfl
        rnd := rfl
        vrnd := rfl
        classic := fastRank_lt ((hwire _ (hin _ rfl)).one_lt_round_of_prepare hrank)
        below := lt_of_le_of_lt hp.voteBelow hlt
        kept := by rw [hself]
        inherited := fun h => (hp.inherited h).mono hsub
        complete := ?_ }⟩
      -- A vote of this machine is no higher than its own `vrnd`.
      rintro k u ⟨m', hm', hsender', hrnd', -⟩ -
      rcases hnew _ hm' with hold | ⟨e, he, hmsg⟩
      · rcases hwire _ hold with ⟨a, r, hsa, hra, -, hle, -⟩
        have haddr : addr a = addr i := Option.some.inj (hsa.symm.trans hsender')
        have hrk : r = k := Option.some.inj (hra.symm.trans hrnd')
        rw [← hrk, ← hinj haddr]
        exact hle
      · rcases List.mem_singleton.1 he with rfl
        cases hmsg
  | propose m chosen hrnd hquorum hchosen hne hcval =>
      rcases List.mem_singleton.1 he with rfl
      cases hr
      have hfast : fastRank < (nodes i).crnd := (hwire _ (hin _ rfl)).fastRank_lt_promise hrnd
      -- A coordinator that has promises has started its round.
      have hown : (nodes i).crnd = Paxos.coordinatorRank (addr i) := by
        rcases hp.crnd with hzero | hown
        · rw [hzero] at hfast
          exact absurd hfast (by decide)
        · exact hown
      -- The promises behind the proposal are those collected and the one of this step.
      have hquorum' : ∀ m' ∈ (nodes i).phase1bMessages ++ [m],
          ⟨some (.phase1bMessage m')⟩ ∈ sent ∧ m'.rnd = some (nodes i).crnd := by
        intro m' hm'
        rcases List.mem_append.1 hm' with hold | hlast
        · exact hp.collected m' hold
        · rcases List.mem_singleton.1 hlast with rfl
          exact ⟨hin _ rfl, hrnd⟩
      refine ⟨i, by rw [← hown]; rfl, ?_, ?_, hne, (nodes i).phase1bMessages ++ [m], {
        sent := fun m' hm' => hsub (hquorum' m' hm').1
        rank := fun m' hm' => hown ▸ (hquorum' m' hm').2
        distinct := hdistinct m rfl hrnd
        large := by rw [← hp.size]; exact hquorum
        rule := by rw [← hp.size]; exact hchosen }⟩
      · rw [hself]
        exact hown
      · rw [hself]
        rfl
  | accept m rnd hrnd hle hne =>
      rcases List.mem_singleton.1 he with rfl
      cases hr
      refine ⟨i, rnd, by rw [← hp.myAddr]; rfl, rfl,
        fastRank_lt ((hwire _ (hin _ rfl)).one_lt_round_of_proposal hrnd), ?_,
        m, hsub (hin _ rfl), hrnd, rfl⟩
      rw [hself]
  | decide =>
      rcases List.mem_singleton.1 he with rfl
      cases hr

/-- A decision rests on a majority of votes at one rank. -/
theorem DecidedAt.of_move {i : Fin N} {p p' : Paxos} {input : PaxosCommand ⊕ RapidRequest}
    {outs : List PaxosOutgoing} (hp : NodeInv addr sent i p) (hmove : Paxos.Move p input p' outs)
    (hsub : sent ⊆ sent') (hp' : NodeInv addr sent' i p') (hin : ∀ m, input = .inr m → m ∈ sent)
    {v : List Endpoint} (hv : Emission.decision v ∈ outs) : DecidedAt sent' N v := by
  cases hmove with
  | decide m rnd sender hrnd hsender hopen hquorum =>
      rcases List.mem_singleton.1 hv with heq
      cases heq
      refine ⟨rnd, (p.bucketAfter rnd sender m).keys, ?_, ?_, m, hsub (hin _ rfl), hrnd, rfl⟩
      · rw [← hp.size]
        exact hquorum
      · intro s hs
        -- The bucket of the round holds one message for each sender, all of them sent.
        rcases Finmap.mem_iff.1 (Finmap.mem_keys.1 hs) with ⟨m', hm'⟩
        exact ⟨m', hp'.buckets rnd _ (Finmap.lookup_insert _) s m' hm'⟩
  | idle => cases hv
  | register => cases hv
  | promiseSilent => cases hv
  | collect => cases hv
  | learn => cases hv
  | prepare => cases List.mem_singleton.1 hv
  | promise => cases List.mem_singleton.1 hv
  | propose => cases List.mem_singleton.1 hv
  | accept => cases List.mem_singleton.1 hv

end Preservation

/-! ## Promises on their way are distinct -/

section Distinct

theorem collected_of_move {p p' : Paxos} {input : PaxosCommand ⊕ RapidRequest}
    {outs : List PaxosOutgoing} (hmove : Paxos.Move p input p' outs) :
    p'.phase1bMessages = p.phase1bMessages ∨
      ∃ m, input = .inr ⟨some (.phase1bMessage m)⟩ ∧
        p'.phase1bMessages = p.phase1bMessages ++ [m] := by
  cases hmove with
  | collect m => exact .inr ⟨m, rfl, rfl⟩
  | propose m => exact .inr ⟨m, rfl, rfl⟩
  | _ => exact .inl rfl

/-- A move sends at most one promise to `j`, for a rank above all it has promised before. -/
theorem promises_of_move (addr : Fin N → Endpoint) {p p' : Paxos}
    {input : PaxosCommand ⊕ RapidRequest} {outs : List PaxosOutgoing}
    (hmove : Paxos.Move p input p' outs) (j : Fin N) :
    (arriving (outs.flatMap (Emission.copies addr)) j).filterMap phase1b? = [] ∨
      ∃ m rank, (arriving (outs.flatMap (Emission.copies addr)) j).filterMap phase1b? = [m] ∧
        m.sender = some p.myAddr ∧ m.rnd = some rank ∧ p.rnd < rank := by
  -- Emissions that carry no promise contribute nothing.
  have hsilent : ∀ e : PaxosOutgoing, (∀ r, e.message? = some r → phase1b? r = none) →
      (arriving ([e].flatMap (Emission.copies addr)) j).filterMap phase1b? = [] := by
    intro e he
    rw [List.flatMap_singleton]
    rcases arriving_copies addr e j with hnone | ⟨m, hm, hone⟩
    · rw [hnone]
      rfl
    · rw [hone]
      simp [he m hm]
  cases hmove with
  | promise m rank sender hlt hrank hsender =>
      rw [List.flatMap_singleton]
      rcases arriving_copies addr
        (.unicast sender ⟨some (.phase1bMessage (p.promiseMessage rank))⟩ : PaxosOutgoing) j
        with hnone | ⟨r, hr, hone⟩
      · rw [hnone]
        exact .inl rfl
      · cases hr
        rw [hone]
        exact .inr ⟨p.promiseMessage rank, rank, rfl, rfl, rfl, hlt⟩
  | prepare => exact .inl (hsilent _ (by rintro r ⟨⟩; rfl))
  | propose => exact .inl (hsilent _ (by rintro r ⟨⟩; rfl))
  | accept => exact .inl (hsilent _ (by rintro r ⟨⟩; rfl))
  | decide => exact .inl (hsilent _ (by rintro r ⟨⟩))
  | _ => exact .inl rfl

end Distinct

/-! ## The invariant along runs -/

section Runs

variable {configurationId : Int64} {addr : Fin N → Endpoint} {w : ClassicWorld N}

theorem react_move (i : Fin N) (input : PaxosCommand ⊕ RapidRequest) :
    Paxos.Move (w.nodes i) input ((classicNetwork configurationId addr).react (w.nodes i) input).1
      ((classicNetwork configurationId addr).react (w.nodes i) input).2 := by
  cases input with
  | inl c => exact (w.nodes i).run_move c
  | inr m => exact (w.nodes i).receive_move m

/-- What coordinator `j` holds or may receive, after machine `i` has taken its input, is part of
what it was before. -/
theorem promisesFor_consume {i : Fin N} {input : PaxosCommand ⊕ RapidRequest}
    {r : Paxos × List PaxosOutgoing} (hmove : Paxos.Move (w.nodes i) input r.1 r.2)
    (hin : ∀ m, input = .inr m → (i, m) ∈ w.inflight) (j : Fin N) :
    (((Function.update w.nodes i r.1) j).phase1bMessages ++
      (arriving (Protocol.consume w i input).inflight j).filterMap phase1b?).Subperm
        (promisesFor w j) := by
  have hsub : ((arriving (Protocol.consume w i input).inflight j).filterMap phase1b?).Sublist
      ((arriving w.inflight j).filterMap phase1b?) :=
    (arriving_sublist (Protocol.consume_inflight_sublist w i input) j).filterMap _
  have hsame : ((Function.update w.nodes i r.1) j).phase1bMessages = (w.nodes j).phase1bMessages →
      (((Function.update w.nodes i r.1) j).phase1bMessages ++
        (arriving (Protocol.consume w i input).inflight j).filterMap phase1b?).Subperm
          (promisesFor w j) := by
    intro heq
    rw [heq]
    exact (hsub.append_left _).subperm
  by_cases hji : j = i
  · subst hji
    rw [Function.update_self] at hsame ⊢
    rcases collected_of_move hmove with hkeep | ⟨m, hm, happ⟩
    · exact hsame hkeep
    · -- The promise taken from the network is the one that was collected.
      subst hm
      have hperm := (arriving_perm_cons (hin _ rfl)).filterMap phase1b?
      rw [happ, List.append_assoc]
      exact (hperm.symm.append_left _).subperm
  · exact hsame (by rw [Function.update_of_ne hji])

/-- A promise held by its coordinator or in flight was sent. -/
theorem ClassicInv.promise_sent (hI : ClassicInv addr w)
    (hflight : ∀ p ∈ w.inflight, p.2 ∈ w.sent) {j : Fin N} {m : Phase1bMessage}
    (hm : m ∈ promisesFor w j) : ⟨some (.phase1bMessage m)⟩ ∈ w.sent := by
  rcases List.mem_append.1 hm with hheld | hcoming
  · exact ((hI.node j).collected m hheld).1
  · rcases List.mem_filterMap.1 hcoming with ⟨⟨content⟩, hreq, hcontent⟩
    have hcopy := hflight _ (mem_arriving.1 hreq)
    cases content with
    | none => cases hcontent
    | some content =>
        cases content with
        | phase1bMessage m' =>
            cases hcontent
            exact hcopy
        | _ => cases hcontent

/-- All promises collected for the coordinator's rank have different senders. -/
theorem ClassicInv.senders_nodup (hI : ClassicInv addr w) {i : Fin N} {m : Phase1bMessage}
    (hin : (i, ⟨some (.phase1bMessage m)⟩) ∈ w.inflight)
    (hrnd : m.rnd = some (w.nodes i).crnd) :
    (((w.nodes i).phase1bMessages ++ [m]).map Phase1bMessage.sender).Nodup := by
  have hmem : m ∈ (arriving w.inflight i).filterMap phase1b? :=
    List.mem_filterMap.2 ⟨_, mem_arriving.2 hin, rfl⟩
  have hpart : ((w.nodes i).phase1bMessages ++ [m]).Sublist (promisesFor w i) :=
    (List.singleton_sublist.2 hmem).append_left _
  have hkeys := (hI.distinct i).sublist (hpart.map fun m => (m.sender, m.rnd))
  refine List.Nodup.of_map (fun s => (s, some (w.nodes i).crnd)) ?_
  rw [List.map_map]
  convert hkeys using 1
  apply List.map_congr_left
  intro m' hm'
  have hrnd' : m'.rnd = some (w.nodes i).crnd := by
    rcases List.mem_append.1 hm' with hold | hlast
    · exact ((hI.node i).collected m' hold).2
    · rcases List.mem_singleton.1 hlast with rfl
      exact hrnd
  simp [hrnd']

/-- The keys of the promises stay distinct: a new promise is for a rank its sender had not
promised before. -/
theorem ClassicInv.distinct_react (hinj : Function.Injective addr) (hI : ClassicInv addr w)
    {i : Fin N} {input : PaxosCommand ⊕ RapidRequest} {r : Paxos × List PaxosOutgoing}
    (hmove : Paxos.Move (w.nodes i) input r.1 r.2)
    (hin : ∀ m, input = .inr m → (i, m) ∈ w.inflight)
    (hflight : ∀ p ∈ w.inflight, p.2 ∈ w.sent) (j : Fin N) :
    ((promisesFor ((classicNetwork configurationId addr).post (Protocol.consume w i input) i r)
      j).map fun m => (m.sender, m.rnd)).Nodup := by
  -- What is there already, and what the step puts on the wire.
  have hsplit : promisesFor ((classicNetwork configurationId addr).post
      (Protocol.consume w i input) i r) j =
      ((Function.update w.nodes i r.1 j).phase1bMessages ++
        (arriving (Protocol.consume w i input).inflight j).filterMap phase1b?) ++
          (arriving (r.2.flatMap (Emission.copies addr)) j).filterMap phase1b? := by
    rw [promisesFor, Protocol.post_inflight, arriving_append, List.filterMap_append,
      ← List.append_assoc, ← Protocol.consume_nodes w i input]
    rfl
  have hsubperm := promisesFor_consume hmove hin j
  have hold : (((Function.update w.nodes i r.1 j).phase1bMessages ++
      (arriving (Protocol.consume w i input).inflight j).filterMap phase1b?).map
        fun m => (m.sender, m.rnd)).Nodup := by
    rcases hsubperm with ⟨l, hl, hsublist⟩
    have hnodup := (hI.distinct j).sublist (hsublist.map fun m => (m.sender, m.rnd))
    exact ((hl.map _).nodup_iff).1 hnodup
  rw [hsplit, List.map_append]
  rcases promises_of_move addr hmove j with hnone | ⟨m, rank, hone, hsender, hrnd, hlt⟩
  · rw [hnone]
    simpa using hold
  · rw [hone]
    refine List.nodup_append.2 ⟨hold, by simp, ?_⟩
    intro key hkey key' hkey' heq
    rw [List.map_singleton, List.mem_singleton] at hkey'
    rcases List.mem_map.1 hkey with ⟨m', hm', rfl⟩
    rw [hkey', Prod.mk.injEq] at heq
    -- An earlier promise of the same rank would contradict that ranks only grow.
    have hm'sent := hI.promise_sent hflight (hsubperm.subset hm')
    rcases hI.wire _ hm'sent with ⟨a, k, vk, hpromise⟩
    have haddr : addr a = addr i := by
      rw [← (hI.node i).myAddr]
      exact Option.some.inj (hpromise.sender.symm.trans (heq.1.trans hsender))
    have hk : k = rank := Option.some.inj (hpromise.rnd.symm.trans (heq.2.trans hrnd))
    have hkept : k ≤ (w.nodes a).rnd := hpromise.kept
    rw [hinj haddr, hk] at hkept
    exact absurd hlt (not_lt.2 hkept)

/-- New votes are cast at ranks the voter had not promised away. -/
theorem ClassicInv.voted_react (hinj : Function.Injective addr) (hI : ClassicInv addr w)
    {i : Fin N} {input : PaxosCommand ⊕ RapidRequest} {p' : Paxos} {outs : List PaxosOutgoing}
    (hmove : Paxos.Move (w.nodes i) input p' outs) {sent' : List RapidRequest}
    (hnew : ∀ m ∈ sent', m ∈ w.sent ∨ ∃ e ∈ outs, e.message? = some m)
    {a : Fin N} {k : Rank} {u : List Endpoint} (hvoted : Voted addr sent' a k u) :
    Voted addr w.sent a k u ∨ (w.nodes a).rnd ≤ k := by
  rcases hvoted with ⟨m, hm, hsender, hrnd, hval⟩
  rcases hnew _ hm with hold | ⟨e, he, hmsg⟩
  · exact .inl ⟨m, hold, hsender, hrnd, hval⟩
  · rcases vote_of_move hmove he hmsg with ⟨hme, k', hk', hle⟩
    have haddr : addr a = addr i := by
      rw [← (hI.node i).myAddr]
      exact Option.some.inj (hsender.symm.trans hme)
    have hkk : k' = k := Option.some.inj (hk'.symm.trans hrnd)
    rw [hinj haddr, ← hkk]
    exact .inr hle

/-- The invariant survives a reaction to an available input. -/
theorem ClassicInv.react (hinj : Function.Injective addr) (hI : ClassicInv addr w) {i : Fin N}
    {input : PaxosCommand ⊕ RapidRequest} {r : Paxos × List PaxosOutgoing}
    (hmove : Paxos.Move (w.nodes i) input r.1 r.2)
    (hin : ∀ m, input = .inr m → (i, m) ∈ w.inflight)
    (hflight : ∀ p ∈ w.inflight, p.2 ∈ w.sent) :
    ClassicInv addr
      ((classicNetwork configurationId addr).post (Protocol.consume w i input) i r) := by
  -- The new world is named by its nodes and its history.
  have hreacted := Protocol.reacted (classicNetwork configurationId addr) w i input r
  generalize hw' : (classicNetwork configurationId addr).post (Protocol.consume w i input) i r = w'
    at hreacted
  have hsub := hreacted.sent_subset
  have hinsent : ∀ m, input = .inr m → m ∈ w.sent := fun m hm => hflight _ (hin m hm)
  have hnode : NodeInv addr w'.sent i r.1 := (hI.node i).move hmove hsub hinsent hI.wire
  have hadvances : ∀ j, Advances (Paxos.coordinatorRank (addr j)) (w.nodes j) (w'.nodes j) := by
    intro j
    by_cases hji : j = i
    · subst hji
      rw [hreacted.own]
      exact (hI.node j).advances hmove
    · rw [hreacted.others j hji]
      exact .refl _ _
  refine ⟨?_, ?_, ?_, ?_⟩
  · exact hreacted.nodes hnode fun j => (hI.node j).mono hsub
  · intro request hrequest
    rcases (hreacted.sent request).1 hrequest with hold | ⟨e, he, hmsg⟩
    · exact (hI.wire request hold).persist hsub hadvances fun a k u hvoted =>
        hI.voted_react hinj hmove (fun m => (hreacted.sent m).1) hvoted
    · refine WireOk.emitted hinj (hI.node i) hmove hreacted.own hsub (fun m => (hreacted.sent m).1) hinsent
        hI.wire ?_ he hmsg
      intro m hm hrnd
      exact hI.senders_nodup (hin _ hm) hrnd
  · rw [← hw']
    exact hI.distinct_react hinj hmove hin hflight
  · intro d hd
    rw [← hw', Protocol.mem_post_decisions, Protocol.consume_decisions] at hd
    rcases hd with hold | ⟨-, hdec⟩
    · exact (hI.decided d hold).mono hsub
    · exact DecidedAt.of_move (hI.node i) hmove hsub hnode hinsent hdec

theorem ClassicInv.initial (configurationId : Int64) (addr : Fin N → Endpoint) :
    ClassicInv addr (classicNetwork configurationId addr).initial where
  node i :=
    { myAddr := rfl
      size := rfl
      crnd := .inl rfl
      voteBelow := le_refl _
      rounds := .inr (show (⟨0, 0⟩ : Rank) ≤ fastRank by decide)
      inherited := fun h => absurd (show fastRank < (⟨0, 0⟩ : Rank) from h) (by decide)
      collected := fun m hm => by cases hm
      buckets := fun r b hb => by cases hb }
  wire request hrequest := by cases hrequest
  distinct i := List.nodup_nil
  decided d hd := by cases hd

/-- The invariant holds in every state of every run. -/
theorem ClassicInv.reaches (hinj : Function.Injective addr)
    {ok : ClassicWorld N → NetAction N RapidRequest PaxosCommand → Prop}
    (h : (classicNetwork configurationId addr).system.Reaches ok w) : ClassicInv addr w := by
  refine h.invariant ?_ ?_
  · intro w hw
    rw [show w = (classicNetwork configurationId addr).initial from hw]
    exact .initial configurationId addr
  · intro w a w' hw hI _ hstep
    rcases Protocol.step_cases hstep with ⟨i, input, _, havail, rfl⟩ | ⟨j, m, _, hin, rfl⟩
    · refine hI.react hinj (react_move i input) ?_ (Protocol.inflight_sent hw)
      rintro m rfl
      exact havail
    · refine { hI with distinct := ?_ }
      intro i
      have hsub : (promisesFor (Protocol.consume w j (.inr m)) i).Sublist (promisesFor w i) :=
        ((arriving_sublist (Protocol.consume_inflight_sublist w j (.inr m)) i).filterMap
          _).append_left _
      exact (hI.distinct i).sublist (hsub.map _)

end Runs

end Rapid
