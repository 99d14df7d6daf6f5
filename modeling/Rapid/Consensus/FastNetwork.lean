import Rapid.Consensus.ClassicNetwork

/-!
# FastNetwork — N FastPaxos instances over a lossy network

The closed system of `N` fast instances of one configuration. Two facts connect it to the layer
below:

* the classic part of every run is a run of `classicNetwork` (`Refines`);
* a fast decision rests on the fast votes of all but `faults N` distinct acceptors (`FastInv`).
-/

namespace Rapid

open Foundations

variable [Xxh64] {N : Nat}

/-! ## The system -/

/-- What the environment may ask of an instance; the jitter is what `propose` draws. -/
inductive FastCommand
  | propose (jitter : Duration) (proposal : List Endpoint)
  | startClassicRound
  deriving DecidableEq

namespace FastPaxos

/-- The effects that reach the other instances. -/
def visible (r : FastPaxos × List FastOutgoing) : FastPaxos × List PaxosOutgoing :=
  (r.1, r.2.filterMap FastOutgoing.emission?)

def run (p : FastPaxos) : FastCommand → FastPaxos × List FastOutgoing
  | .propose jitter proposal => p.propose jitter proposal
  | .startClassicRound => p.startClassicRound

end FastPaxos

abbrev FastWorld (N : Nat) := World N FastPaxos RapidRequest (List Endpoint) FastCommand

def FastCommand.isPropose : FastCommand → Bool
  | propose _ _ => true
  | startClassicRound => false

/-- `N` instances of one configuration: each proposes a non-empty list at most once and may start
its classic round at any moment. -/
def fastNetwork (configurationId : Int64) (addr : Fin N → Endpoint) (delay : Fin N → Duration) :
    Protocol N Endpoint FastPaxos RapidRequest (List Endpoint) FastCommand where
  addr := addr
  boot i := FastPaxos.new (addr i) configurationId N (delay i)
  handle p request := FastPaxos.visible (p.handleConsensusMessage request)
  command p c := FastPaxos.visible (p.run c)
  enabled issued i c :=
    match c with
    | .propose _ proposal =>
        !proposal.isEmpty && !issued.any fun p => p.1 == i && p.2.isPropose
    | .startClassicRound => true

/-! ## What one call can do -/

/-- Requests handled by the inner classic machine. -/
def isClassic (request : RapidRequest) : Bool :=
  match request.content with
  | some (.phase1aMessage _) => true
  | some (.phase1bMessage _) => true
  | some (.phase2aMessage _) => true
  | some (.phase2bMessage _) => true
  | _ => false

def fastMessage (p : FastPaxos) (proposal : List Endpoint) : FastRoundPhase2bMessage where
  configurationId := p.configurationId
  endpoints := proposal
  sender := some p.myAddr

namespace FastPaxos

def voteCount (p : FastPaxos) (proposal : List Endpoint) : Nat :=
  (p.votesPerProposal.lookup proposal).getD 0

/-- The instance once the vote of `sender` is counted. -/
def countVote (p : FastPaxos) (sender : Endpoint) (proposal : List Endpoint) : FastPaxos :=
  { p with
    votesReceived := insert sender p.votesReceived
    proposalLookup :=
      if proposal ∈ p.proposalLookup then p.proposalLookup
      else p.proposalLookup.insert proposal proposal
    votesPerProposal := p.votesPerProposal.insert proposal (p.voteCount proposal + 1) }

/-- Every way a call changes an instance, with the emissions the others can see. -/
inductive Move : FastPaxos → FastCommand ⊕ RapidRequest → FastPaxos → List PaxosOutgoing → Prop
  | idle (p : FastPaxos) (input : FastCommand ⊕ RapidRequest)
      (hcommand : ∀ jitter v, input ≠ .inl (.propose jitter v))
      (hmessage : ∀ m, input = .inr m → isClassic m = false) : Move p input p []
  | propose (p : FastPaxos) (jitter : Duration) (proposal : List Endpoint) :
      Move p (.inl (.propose jitter proposal))
        { p with paxos := p.paxos.registerFastRoundVote proposal }
        [.broadcast ⟨some (.fastRoundPhase2bMessage (fastMessage p proposal))⟩]
  | startClassic (p : FastPaxos) (hfresh : p.classicStarted = false) :
      Move p (.inl .startClassicRound)
        { p with classicStarted := true, paxos := (p.paxos.startPhase1a 2).1 }
        (p.paxos.startPhase1a 2).2
  | classic (p : FastPaxos) (m : RapidRequest) (hclassic : isClassic m) :
      Move p (.inr m)
        { p with
          paxos := (p.paxos.receive m).1
          decided := p.decided || (p.paxos.receive m).1.decided }
        (p.paxos.receive m).2
  | count (p : FastPaxos) (m : FastRoundPhase2bMessage) (sender : Endpoint)
      (hsender : m.sender = some sender) (hnew : sender ∉ p.votesReceived) :
      Move p (.inr ⟨some (.fastRoundPhase2bMessage m)⟩) (p.countVote sender m.endpoints) []
  | decide (p : FastPaxos) (m : FastRoundPhase2bMessage) (sender : Endpoint)
      (hsender : m.sender = some sender) (hnew : sender ∉ p.votesReceived)
      (hquorum : p.membershipSize - faults p.membershipSize ≤ p.voteCount m.endpoints + 1) :
      Move p (.inr ⟨some (.fastRoundPhase2bMessage m)⟩)
        { p.countVote sender m.endpoints with decided := true } [.decision m.endpoints]

omit [Xxh64] in
theorem filterMap_emission?_map_wrap (outs : List PaxosOutgoing) :
    (outs.map wrap).filterMap FastOutgoing.emission? = outs := by
  rw [List.filterMap_map]
  calc
    outs.filterMap (FastOutgoing.emission? ∘ wrap) = outs.filterMap some := by
      congr 1
      funext out
      exact emission?_wrap out
    _ = outs := List.filterMap_some

variable (p : FastPaxos)

theorem run_move (c : FastCommand) :
    Move p (.inl c) (visible (p.run c)).1 (visible (p.run c)).2 := by
  cases c with
  | propose jitter proposal => exact .propose p jitter proposal
  | startClassicRound =>
      unfold run startClassicRound
      cases hdecided : p.decided with
      | true => exact .idle p _ (by rintro j v ⟨⟩) (by rintro m ⟨⟩)
      | false =>
          cases hfresh : p.classicStarted with
          | true => exact .idle p _ (by rintro j v ⟨⟩) (by rintro m ⟨⟩)
          | false =>
              simpa [visible, filterMap_emission?_map_wrap, hdecided] using
                Move.startClassic p hfresh

omit [Xxh64] in
theorem handleFastRoundProposal_of_decided (hdecided : p.decided = true)
    (m : FastRoundPhase2bMessage) : p.handleFastRoundProposal m = (p, []) := by
  unfold handleFastRoundProposal
  exact if_pos (Or.inr hdecided)

theorem handleFastRoundProposal_move (m : FastRoundPhase2bMessage) :
    Move p (.inr ⟨some (.fastRoundPhase2bMessage m)⟩)
      (visible (p.handleFastRoundProposal m)).1 (visible (p.handleFastRoundProposal m)).2 := by
  have hidle : Move p (.inr ⟨some (.fastRoundPhase2bMessage m)⟩) p [] := by
    refine .idle p _ (by rintro j v ⟨⟩) ?_
    rintro m' ⟨⟩
    rfl
  unfold handleFastRoundProposal
  split
  · exact hidle
  · cases hsender : m.sender with
    | none => exact hidle
    | some sender =>
        by_cases hnew : sender ∈ p.votesReceived
        · simpa [hnew, visible] using hidle
        · simp only [hnew, if_false]
          split
          · rename_i hquorum
            exact .decide p m sender hsender hnew hquorum.2
          · exact .count p m sender hsender hnew

theorem handleConsensusMessage_move (request : RapidRequest) :
    Move p (.inr request) (visible (p.handleConsensusMessage request)).1
      (visible (p.handleConsensusMessage request)).2 := by
  have hclassic : ∀ m : RapidRequest, isClassic m →
      Move p (.inr m) (visible (p.afterClassic (p.paxos.receive m))).1
        (visible (p.afterClassic (p.paxos.receive m))).2 := by
    intro m hm
    simpa [visible, afterClassic, filterMap_emission?_map_wrap] using Move.classic p m hm
  obtain ⟨content⟩ := request
  cases content with
  | none => exact .idle p _ (by rintro j v ⟨⟩) (by rintro m ⟨⟩; rfl)
  | some content =>
      cases content with
      | phase1aMessage m => exact hclassic ⟨some (.phase1aMessage m)⟩ rfl
      | phase1bMessage m => exact hclassic ⟨some (.phase1bMessage m)⟩ rfl
      | phase2aMessage m => exact hclassic ⟨some (.phase2aMessage m)⟩ rfl
      | phase2bMessage m => exact hclassic ⟨some (.phase2bMessage m)⟩ rfl
      | fastRoundPhase2bMessage m => exact p.handleFastRoundProposal_move m
      | _ => exact .idle p _ (by rintro j v ⟨⟩) (by rintro m ⟨⟩; rfl)

end FastPaxos

/-! ## Counting fast votes -/

section Counting

variable (addr : Fin N → Endpoint) (sent : List RapidRequest)

/-- Acceptor `a` has broadcast a fast vote for `v`. -/
def FastVoted (a : Fin N) (v : List Endpoint) : Prop :=
  ∃ m : FastRoundPhase2bMessage, ⟨some (.fastRoundPhase2bMessage m)⟩ ∈ sent ∧
    m.sender = some (addr a) ∧ m.endpoints = v

open Classical in
/-- The senders counted at `p` that voted for `v`. -/
noncomputable def countedFor (p : FastPaxos) (v : List Endpoint) : Finset Endpoint :=
  p.votesReceived.filter fun s => ∃ a, addr a = s ∧ FastVoted addr sent a v

open Classical in
/-- A fast decision for `v`: all but `faults N` acceptors voted for it. -/
def FastDecided (v : List Endpoint) : Prop :=
  N - FastPaxos.faults N ≤ (Finset.univ.filter fun a => FastVoted addr sent a v).card

variable {addr sent} {sent' : List RapidRequest}

omit [Xxh64] in
theorem mem_countedFor {p : FastPaxos} {v : List Endpoint} {s : Endpoint} :
    s ∈ countedFor addr sent p v ↔
      s ∈ p.votesReceived ∧ ∃ a, addr a = s ∧ FastVoted addr sent a v := by
  simp [countedFor]

omit [Xxh64] in
theorem FastVoted.mono (hsub : sent ⊆ sent') {a : Fin N} {v : List Endpoint}
    (h : FastVoted addr sent a v) : FastVoted addr sent' a v := by
  rcases h with ⟨m, hm, hrest⟩
  exact ⟨m, hsub hm, hrest⟩

omit [Xxh64] in
theorem FastDecided.mono (hsub : sent ⊆ sent') {v : List Endpoint}
    (h : FastDecided addr sent v) : FastDecided addr sent' v := by
  classical
  refine le_trans h (Finset.card_le_card ?_)
  intro a ha
  rw [Finset.mem_filter] at ha ⊢
  exact ⟨ha.1, ha.2.mono hsub⟩

omit [Xxh64] in
theorem countedFor_mono (hsub : sent ⊆ sent') (p : FastPaxos) (v : List Endpoint) :
    countedFor addr sent p v ⊆ countedFor addr sent' p v := by
  intro s hs
  rw [mem_countedFor] at hs ⊢
  rcases hs with ⟨hmem, a, ha, hvoted⟩
  exact ⟨hmem, a, ha, hvoted.mono hsub⟩

omit [Xxh64] in
/-- Counting the vote of a new sender keeps every count below the number of its voters. -/
theorem voteCount_countVote {p : FastPaxos} {m : FastRoundPhase2bMessage} {a : Fin N}
    (hm : ⟨some (.fastRoundPhase2bMessage m)⟩ ∈ sent) (hsender : m.sender = some (addr a))
    (hnew : addr a ∉ p.votesReceived)
    (hcounted : ∀ v, p.voteCount v ≤ (countedFor addr sent p v).card) (v : List Endpoint) :
    (p.countVote (addr a) m.endpoints).voteCount v ≤
      (countedFor addr sent (p.countVote (addr a) m.endpoints) v).card := by
  have hgrow : countedFor addr sent p v ⊆
      countedFor addr sent (p.countVote (addr a) m.endpoints) v := by
    intro s hs
    rw [mem_countedFor] at hs ⊢
    exact ⟨Finset.mem_insert_of_mem hs.1, hs.2⟩
  by_cases hv : v = m.endpoints
  · have hcount : (p.countVote (addr a) m.endpoints).voteCount v = p.voteCount v + 1 := by
      subst hv
      simp [FastPaxos.countVote, FastPaxos.voteCount]
    -- The vote is counted for a sender who was not counted before.
    have hfresh : addr a ∉ countedFor addr sent p v :=
      fun h => hnew (mem_countedFor.1 h).1
    have hmem : addr a ∈ countedFor addr sent (p.countVote (addr a) m.endpoints) v := by
      rw [mem_countedFor]
      exact ⟨Finset.mem_insert_self _ _, a, rfl, m, hm, hsender, hv.symm⟩
    calc
      (p.countVote (addr a) m.endpoints).voteCount v ≤ (countedFor addr sent p v).card + 1 := by
        rw [hcount]
        exact Nat.add_le_add_right (hcounted v) 1
      _ = (insert (addr a) (countedFor addr sent p v)).card :=
        (Finset.card_insert_of_notMem hfresh).symm
      _ ≤ _ := Finset.card_le_card (Finset.insert_subset hmem hgrow)
  · have hcount : (p.countVote (addr a) m.endpoints).voteCount v = p.voteCount v := by
      simp [FastPaxos.countVote, FastPaxos.voteCount, Finmap.lookup_insert_of_ne _ hv]
    rw [hcount]
    exact le_trans (hcounted v) (Finset.card_le_card hgrow)

omit [Xxh64] in
theorem FastDecided.of_count {p : FastPaxos} {v : List Endpoint}
    (hquorum : N - FastPaxos.faults N ≤ p.voteCount v)
    (hcounted : p.voteCount v ≤ (countedFor addr sent p v).card) : FastDecided addr sent v := by
  classical
  have hsubset : countedFor addr sent p v ⊆
      (Finset.univ.filter fun a => FastVoted addr sent a v).image addr := by
    intro s hs
    rw [mem_countedFor] at hs
    rcases hs.2 with ⟨a, rfl, hvoted⟩
    exact Finset.mem_image_of_mem addr (Finset.mem_filter.2 ⟨Finset.mem_univ a, hvoted⟩)
  calc
    N - FastPaxos.faults N ≤ p.voteCount v := hquorum
    _ ≤ (countedFor addr sent p v).card := hcounted
    _ ≤ _ := Finset.card_le_card hsubset
    _ ≤ _ := Finset.card_image_le

end Counting

/-! ## The invariant of the fast round -/

structure FastInv (addr : Fin N → Endpoint) (w : FastWorld N) : Prop where
  myAddr : ∀ i, (w.nodes i).myAddr = addr i
  size : ∀ i, (w.nodes i).membershipSize = N
  votes : ∀ m : FastRoundPhase2bMessage, ⟨some (.fastRoundPhase2bMessage m)⟩ ∈ w.sent →
    ∃ i jitter, m.sender = some (addr i) ∧ (i, FastCommand.propose jitter m.endpoints) ∈ w.issued
  once : ∀ i jitter v jitter' v', (i, FastCommand.propose jitter v) ∈ w.issued →
    (i, FastCommand.propose jitter' v') ∈ w.issued → v = v'
  nonempty : ∀ i jitter v, (i, FastCommand.propose jitter v) ∈ w.issued → v ≠ []
  counted : ∀ i v, (w.nodes i).voteCount v ≤ (countedFor addr w.sent (w.nodes i) v).card

section FastInvariant

variable {configurationId : Int64} {addr : Fin N → Endpoint} {delay : Fin N → Duration}
  {w : FastWorld N}

variable (configurationId addr delay) in
theorem fast_react_move (i : Fin N) (input : FastCommand ⊕ RapidRequest) :
    FastPaxos.Move (w.nodes i) input
      ((fastNetwork configurationId addr delay).react (w.nodes i) input).1
      ((fastNetwork configurationId addr delay).react (w.nodes i) input).2 := by
  cases input with
  | inl c => exact (w.nodes i).run_move c
  | inr m => exact (w.nodes i).handleConsensusMessage_move m

/-- The messages and decisions of a classic move are classic: no fast vote among them. -/
theorem isClassic_of_move {p p' : Paxos} {input : PaxosCommand ⊕ RapidRequest}
    {outs : List PaxosOutgoing} (hmove : Paxos.Move p input p' outs) {e : PaxosOutgoing}
    (he : e ∈ outs) {m : RapidRequest} (hm : e.message? = some m) : isClassic m := by
  cases hmove with
  | idle => cases he
  | register => cases he
  | promiseSilent => cases he
  | collect => cases he
  | learn => cases he
  | prepare =>
      cases List.mem_singleton.1 he
      cases hm
      rfl
  | promise =>
      cases List.mem_singleton.1 he
      cases hm
      rfl
  | propose =>
      cases List.mem_singleton.1 he
      cases hm
      rfl
  | accept =>
      cases List.mem_singleton.1 he
      cases hm
      rfl
  | decide =>
      cases List.mem_singleton.1 he
      cases hm

/-- The only fast vote a call sends is that of a propose. -/
theorem fastVote_of_move {p p' : FastPaxos} {input : FastCommand ⊕ RapidRequest}
    {outs : List PaxosOutgoing} (hmove : FastPaxos.Move p input p' outs) {e : PaxosOutgoing}
    (he : e ∈ outs) {m : FastRoundPhase2bMessage}
    (hm : e.message? = some ⟨some (.fastRoundPhase2bMessage m)⟩) :
    m.sender = some p.myAddr ∧ ∃ jitter, input = .inl (.propose jitter m.endpoints) := by
  cases hmove with
  | idle => cases he
  | count => cases he
  | propose jitter proposal =>
      cases List.mem_singleton.1 he
      cases hm
      exact ⟨rfl, jitter, rfl⟩
  | startClassic =>
      have hclassic := isClassic_of_move p.paxos.startPhase1a_move he hm
      cases hclassic
  | classic m' =>
      have hclassic := isClassic_of_move (p.paxos.receive_move m') he hm
      cases hclassic
  | decide =>
      cases List.mem_singleton.1 he
      cases hm

/-- A call keeps the identity of the instance and the vote counts sound. -/
theorem counted_of_move {p p' : FastPaxos} {input : FastCommand ⊕ RapidRequest}
    {outs : List PaxosOutgoing} (hmove : FastPaxos.Move p input p' outs) {sent : List RapidRequest}
    (hvotes : ∀ m : FastRoundPhase2bMessage, input = .inr ⟨some (.fastRoundPhase2bMessage m)⟩ →
      ⟨some (.fastRoundPhase2bMessage m)⟩ ∈ sent ∧ ∃ a, m.sender = some (addr a))
    (hcounted : ∀ v, p.voteCount v ≤ (countedFor addr sent p v).card) :
    p'.myAddr = p.myAddr ∧ p'.membershipSize = p.membershipSize ∧
      ∀ v, p'.voteCount v ≤ (countedFor addr sent p' v).card := by
  -- Counting a vote that decides and one that does not is the same step.
  have hcount : ∀ (m : FastRoundPhase2bMessage) (sender : Endpoint),
      input = .inr ⟨some (.fastRoundPhase2bMessage m)⟩ → m.sender = some sender →
      sender ∉ p.votesReceived → ∀ v, (p.countVote sender m.endpoints).voteCount v ≤
        (countedFor addr sent (p.countVote sender m.endpoints) v).card := by
    intro m sender hinput hsender hnew
    rcases hvotes m hinput with ⟨hm, a, ha⟩
    have hsa : sender = addr a := Option.some.inj (hsender.symm.trans ha)
    subst hsa
    exact voteCount_countVote hm ha hnew hcounted
  cases hmove with
  | idle => exact ⟨rfl, rfl, hcounted⟩
  | propose => exact ⟨rfl, rfl, hcounted⟩
  | startClassic => exact ⟨rfl, rfl, hcounted⟩
  | classic => exact ⟨rfl, rfl, hcounted⟩
  | count m sender hsender hnew => exact ⟨rfl, rfl, hcount m sender rfl hsender hnew⟩
  | decide m sender hsender hnew => exact ⟨rfl, rfl, hcount m sender rfl hsender hnew⟩

theorem FastInv.react (hI : FastInv addr w) {i : Fin N} {input : FastCommand ⊕ RapidRequest}
    (havail : (fastNetwork configurationId addr delay).Available w i input)
    {r : FastPaxos × List PaxosOutgoing} (hmove : FastPaxos.Move (w.nodes i) input r.1 r.2)
    (hin : ∀ m, input = .inr m → m ∈ w.sent) :
    FastInv addr
      ((fastNetwork configurationId addr delay).post (Protocol.consume w i input) i r) := by
  have hreacted := Protocol.reacted (fastNetwork configurationId addr delay) w i input r
  generalize (fastNetwork configurationId addr delay).post (Protocol.consume w i input) i r = w'
    at hreacted ⊢
  have hsub := hreacted.sent_subset
  -- A command is recorded as issued; a second propose of one instance is refused.
  have hpropose : ∀ j jitter v, (j, FastCommand.propose jitter v) ∈ w'.issued →
      (j, FastCommand.propose jitter v) ∈ w.issued ∨
        j = i ∧ v ≠ [] ∧ ∀ jitter' v', (i, FastCommand.propose jitter' v') ∉ w.issued := by
    intro j jitter v hj
    rw [hreacted.issued] at hj
    cases input with
    | inr m => exact .inl hj
    | inl c =>
        rcases List.mem_append.1 hj with hold | hlast
        · exact .inl hold
        · cases List.mem_singleton.1 hlast
          refine .inr ⟨rfl, ?_⟩
          simp only [Protocol.Available, fastNetwork, Bool.and_eq_true, Bool.not_eq_true',
            List.isEmpty_eq_false_iff, List.any_eq_false, beq_iff_eq, Prod.forall,
            not_and] at havail
          refine ⟨havail.1, ?_⟩
          intro jitter' v' hmem
          exact havail.2 i _ hmem rfl rfl
  -- Votes stay sent, so counts that were covered are covered still.
  have hcounted : ∀ j v, (w.nodes j).voteCount v ≤ (countedFor addr w'.sent (w.nodes j) v).card :=
    fun j v => le_trans (hI.counted j v) (Finset.card_le_card (countedFor_mono hsub _ v))
  have hvotes : ∀ m : FastRoundPhase2bMessage,
      input = .inr ⟨some (.fastRoundPhase2bMessage m)⟩ →
        ⟨some (.fastRoundPhase2bMessage m)⟩ ∈ w'.sent ∧ ∃ a, m.sender = some (addr a) := by
    intro m hm
    rcases hI.votes m (hin _ hm) with ⟨a, _, ha, _⟩
    exact ⟨hsub (hin _ hm), a, ha⟩
  rcases counted_of_move hmove hvotes (hcounted i) with ⟨hmyAddr, hsize, hcounts⟩
  refine ⟨?_, ?_, ?_, ?_, ?_, ?_⟩
  · exact hreacted.nodes (Q := fun j p => p.myAddr = addr j) (hmyAddr.trans (hI.myAddr i)) hI.myAddr
  · exact hreacted.nodes (Q := fun _ p => p.membershipSize = N) (hsize.trans (hI.size i)) hI.size
  · intro m hm
    rcases (hreacted.sent _).1 hm with hold | ⟨e, he, hmsg⟩
    · rcases hI.votes m hold with ⟨j, jitter, hsender, hmem⟩
      exact ⟨j, jitter, hsender, hreacted.issued_subset hmem⟩
    · rcases fastVote_of_move hmove he hmsg with ⟨hsender, jitter, rfl⟩
      refine ⟨i, jitter, by rw [hsender, hI.myAddr i], ?_⟩
      rw [hreacted.issued]
      exact List.mem_append_right _ List.mem_cons_self
  · intro j jitter v jitter' v' hv hv'
    rcases hpropose j jitter v hv with hold | ⟨rfl, _, hfresh⟩
    · rcases hpropose j jitter' v' hv' with hold' | ⟨rfl, _, hfresh⟩
      · exact hI.once j jitter v jitter' v' hold hold'
      · exact absurd hold (hfresh jitter v)
    · rcases hpropose j jitter' v' hv' with hold' | _
      · exact absurd hold' (hfresh jitter' v')
      · -- Both are the command issued by this very step.
        cases input with
        | inr m =>
            rw [hreacted.issued] at hv
            exact absurd hv (hfresh jitter v)
        | inl c =>
            rw [hreacted.issued] at hv hv'
            have hc := (List.mem_append.1 hv).resolve_left (hfresh jitter v)
            have hc' := (List.mem_append.1 hv').resolve_left (hfresh jitter' v')
            have heq := (List.mem_singleton.1 hc).trans (List.mem_singleton.1 hc').symm
            injection heq with _ heq
            injection heq
  · intro j jitter v hv
    rcases hpropose j jitter v hv with hold | ⟨_, hne, _⟩
    · exact hI.nonempty j jitter v hold
    · exact hne
  · exact hreacted.nodes (Q := fun _ p => ∀ v, p.voteCount v ≤ (countedFor addr w'.sent p v).card)
      hcounts hcounted

theorem FastInv.reaches {ok : FastWorld N → NetAction N RapidRequest FastCommand → Prop}
    (h : (fastNetwork configurationId addr delay).system.Reaches ok w) : FastInv addr w := by
  refine h.invariant ?_ ?_
  · intro w hw
    rw [show w = (fastNetwork configurationId addr delay).initial from hw]
    exact ⟨fun i => rfl, fun i => rfl, fun m hm => (by cases hm),
      fun i _ _ _ _ hm => (by cases hm), fun i _ _ hm => (by cases hm), fun i v => Nat.zero_le _⟩
  · intro w a w' hw hI _ hstep
    rcases Protocol.step_cases hstep with ⟨i, input, _, havail, rfl⟩ | ⟨j, m, _, hin, rfl⟩
    · refine hI.react havail (fast_react_move configurationId addr delay i input) ?_
      rintro m rfl
      exact Protocol.inflight_sent hw _ havail
    · exact ⟨hI.myAddr, hI.size, hI.votes, hI.once, hI.nonempty, hI.counted⟩

end FastInvariant

/-! ## The classic part of a run -/

/-- `t` is the classic part of `w`: the inner machines and the classic messages. -/
structure Refines (addr : Fin N → Endpoint) (w : FastWorld N) (t : ClassicWorld N) : Prop where
  nodes : t.nodes = fun i => (w.nodes i).paxos
  inflight : t.inflight = w.inflight.filter fun p => isClassic p.2
  sent : t.sent = w.sent.filter isClassic
  decided : ∀ d ∈ w.decisions, d ∈ t.decisions ∨ FastDecided addr w.sent d.2
  started : ∀ i, (i, PaxosCommand.startPhase1a) ∈ t.issued → (w.nodes i).classicStarted = true

section Refinement

variable {configurationId : Int64} {addr : Fin N → Endpoint} {delay : Fin N → Duration}
  {w : FastWorld N} {t : ClassicWorld N}

/-- `outs'` is the classic part of the emissions `outs`. -/
structure ClassicPart (addr : Fin N → Endpoint) (outs outs' : List PaxosOutgoing) : Prop where
  copies : (outs.flatMap (Emission.copies addr)).filter (fun p => isClassic p.2) =
    outs'.flatMap (Emission.copies addr)
  messages : (outs.filterMap Emission.message?).filter isClassic =
    outs'.filterMap Emission.message?

omit [Xxh64] in
theorem ClassicPart.all {outs : List PaxosOutgoing}
    (houts : ∀ e ∈ outs, ∀ m, e.message? = some m → isClassic m) : ClassicPart addr outs outs := by
  refine ⟨?_, ?_⟩
  · rw [List.filter_eq_self]
    intro p hp
    rcases List.mem_flatMap.1 hp with ⟨e, he, hcopy⟩
    exact houts e he p.2 (Emission.message?_of_mem_copies hcopy)
  · rw [List.filter_eq_self]
    intro m hm
    rcases List.mem_filterMap.1 hm with ⟨e, he, hmsg⟩
    exact houts e he m hmsg

omit [Xxh64] in
theorem ClassicPart.none {outs : List PaxosOutgoing}
    (houts : ∀ e ∈ outs, ∀ m, e.message? = some m → isClassic m = false) :
    ClassicPart addr outs [] := by
  refine ⟨?_, ?_⟩
  · refine List.filter_eq_nil_iff.2 ?_
    intro p hp
    rcases List.mem_flatMap.1 hp with ⟨e, he, hcopy⟩
    rw [houts e he p.2 (Emission.message?_of_mem_copies hcopy)]
    decide
  · refine List.filter_eq_nil_iff.2 ?_
    intro m hm
    rcases List.mem_filterMap.1 hm with ⟨e, he, hmsg⟩
    rw [houts e he m hmsg]
    decide

section Reaction

variable (configurationId delay)

/-- The fast world performs `r` at machine `i`, the classic one its classic part. -/
theorem Refines.post (h : Refines addr w t) {i : Fin N} {r : FastPaxos × List PaxosOutgoing}
    {outs : List PaxosOutgoing} (hpart : ClassicPart addr r.2 outs)
    (hdecided : ∀ v, Emission.decision v ∈ r.2 →
      Emission.decision v ∈ outs ∨ FastDecided addr w.sent v)
    (hstarted : (i, PaxosCommand.startPhase1a) ∈ t.issued → r.1.classicStarted = true) :
    Refines addr ((fastNetwork configurationId addr delay).post w i r)
      ((classicNetwork configurationId addr).post t i (r.1.paxos, outs)) := by
  refine ⟨?_, ?_, ?_, ?_, ?_⟩
  · funext j
    by_cases hji : j = i
    · subst hji
      rw [Protocol.post_nodes_self, Protocol.post_nodes_self]
    · rw [Protocol.post_nodes_ne _ _ _ _ hji, Protocol.post_nodes_ne _ _ _ _ hji, h.nodes]
  · rw [Protocol.post_inflight, Protocol.post_inflight, List.filter_append, h.inflight]
    exact congrArg _ hpart.copies.symm
  · rw [Protocol.post_sent, Protocol.post_sent, List.filter_append, h.sent, hpart.messages]
  · intro d hd
    rw [Protocol.mem_post_decisions] at hd ⊢
    have hsub := Protocol.sent_subset_post (fastNetwork configurationId addr delay) w i r
    rcases hd with hold | ⟨hi, hnew⟩
    · -- A decision of before is classic in both networks, or it is backed by a fast quorum.
      rcases h.decided d hold with hclassic | hfast
      · exact .inl (.inl hclassic)
      · exact .inr (hfast.mono hsub)
    · rcases hdecided d.2 hnew with hclassic | hfast
      · exact .inl (.inr ⟨hi, hclassic⟩)
      · exact .inr (hfast.mono hsub)
  · intro j hj
    by_cases hji : j = i
    · subst hji
      rw [Protocol.post_nodes_self]
      exact hstarted hj
    · rw [Protocol.post_nodes_ne _ _ _ _ hji]
      exact h.started j hj

/-- The classic world stands still while the fast one only counts votes or decides by them. -/
theorem Refines.stutter (h : Refines addr w t) {i : Fin N} {r : FastPaxos × List PaxosOutgoing}
    (hpaxos : r.1.paxos = (w.nodes i).paxos) (hpart : ClassicPart addr r.2 [])
    (hstarted : r.1.classicStarted = (w.nodes i).classicStarted)
    (hdecided : ∀ v, Emission.decision v ∈ r.2 → FastDecided addr w.sent v) :
    Refines addr ((fastNetwork configurationId addr delay).post w i r) t := by
  have hnode : r.1.paxos = t.nodes i := by
    rw [hpaxos, h.nodes]
  have hpost := h.post configurationId delay (i := i) hpart
    (fun v hv => .inr (hdecided v hv)) (fun hj => by rw [hstarted, h.started i hj])
  rwa [hnode, Protocol.post_same] at hpost

omit [Xxh64] in
/-- Taking a message out of both networks; only classic ones are in the classic network. -/
theorem Refines.take (h : Refines addr w t) (i : Fin N) (m : RapidRequest) :
    Refines addr (Protocol.consume w i (.inr m))
      (if isClassic m then Protocol.consume t i (.inr m) else t) := by
  have herase : (w.inflight.filter fun p => isClassic p.2).erase (i, m) =
      (w.inflight.erase (i, m)).filter fun p => isClassic p.2 :=
    List.erase_filter
  by_cases hm : isClassic m
  · rw [if_pos hm]
    exact ⟨h.nodes, (congrArg (List.erase · (i, m)) h.inflight).trans herase, h.sent, h.decided,
      h.started⟩
  · rw [if_neg hm]
    have hnot : (i, m) ∉ w.inflight.filter fun p => isClassic p.2 :=
      fun hmem => hm (List.mem_filter.1 hmem).2
    rw [List.erase_of_not_mem hnot] at herase
    exact ⟨h.nodes, h.inflight.trans herase, h.sent, h.decided, h.started⟩

/-- A reaction of a fast instance is a reaction of its inner machine, or none. -/
theorem Refines.react (h : Refines addr w t) (hI : FastInv addr w) {i : Fin N}
    {input : FastCommand ⊕ RapidRequest} {r : FastPaxos × List PaxosOutgoing}
    (hmove : FastPaxos.Move (w.nodes i) input r.1 r.2)
    (hin : ∀ m, input = .inr m → (i, m) ∈ w.inflight ∧ m ∈ w.sent) :
    ∃ t', (t' = t ∨ ∃ a, (classicNetwork configurationId addr).step t a = some t') ∧
      Refines addr ((fastNetwork configurationId addr delay).post (Protocol.consume w i input) i r)
        t' := by
  obtain ⟨p', outs⟩ := r
  have hnode : t.nodes i = (w.nodes i).paxos := congrFun h.nodes i
  have hcommand : ∀ c, Refines addr (Protocol.consume w i (.inl c)) t :=
    fun c => ⟨h.nodes, h.inflight, h.sent, h.decided, h.started⟩
  -- Commands and votes of the fast path do not reach the classic network.
  have hskip : ∀ m, isClassic m = false → Refines addr (Protocol.consume w i (.inr m)) t := by
    intro m hm
    have htake := h.take i m
    rwa [hm] at htake
  cases hmove with
  | idle _ hcmd hmessage =>
      refine ⟨t, .inl rfl, ?_⟩
      cases input with
      | inl c =>
          exact (hcommand c).stutter configurationId delay rfl (.none fun e he => by cases he) rfl fun v hv => by cases hv
      | inr m =>
          exact (hskip m (hmessage m rfl)).stutter configurationId delay rfl
            (.none fun e he => by cases he) rfl fun v hv => by cases hv
  | propose jitter proposal =>
      have havail : (classicNetwork configurationId addr).Available t i
          (.inl (.registerFastRoundVote proposal)) := rfl
      refine ⟨_, .inr ⟨_, Protocol.step_reactLabel havail⟩, ?_⟩
      have hc : Refines addr (Protocol.consume w i (.inl (.propose jitter proposal)))
          (Protocol.consume t i (.inl (.registerFastRoundVote proposal))) := by
        refine ⟨h.nodes, h.inflight, h.sent, h.decided, ?_⟩
        intro j hj
        rcases List.mem_append.1 hj with hold | hlast
        · exact h.started j hold
        · cases List.mem_singleton.1 hlast
      have hpost := hc.post configurationId delay (i := i)
        (r := ({ w.nodes i with paxos := (w.nodes i).paxos.registerFastRoundVote proposal },
          [.broadcast ⟨some (.fastRoundPhase2bMessage (fastMessage (w.nodes i) proposal))⟩]))
        (.none (by
          intro e he m hm
          cases List.mem_singleton.1 he
          cases hm
          rfl))
        (fun v hv => by cases List.mem_singleton.1 hv) (hc.started i)
      rw [hnode]
      exact hpost
  | startClassic hfresh =>
      have hidle : (i, PaxosCommand.startPhase1a) ∉ t.issued := by
        intro hmem
        rw [h.started i hmem] at hfresh
        cases hfresh
      have havail : (classicNetwork configurationId addr).Available t i (.inl .startPhase1a) := by
        simpa [Protocol.Available, classicNetwork] using hidle
      refine ⟨_, .inr ⟨_, Protocol.step_reactLabel havail⟩, ?_⟩
      -- The latch is set in the same step, so the command is recorded once.
      have hc : Refines addr (Protocol.consume w i (.inl .startClassicRound)) t := hcommand _
      have hpost := hc.post configurationId delay (i := i)
        (r := ({ w.nodes i with
            classicStarted := true
            paxos := ((w.nodes i).paxos.startPhase1a 2).1 }, ((w.nodes i).paxos.startPhase1a 2).2))
        (.all fun e he m hm => isClassic_of_move (Paxos.startPhase1a_move _) he hm)
        (fun v hv => .inl hv) (fun _ => rfl)
      rw [hnode]
      refine ⟨hpost.nodes, hpost.inflight, hpost.sent, hpost.decided, ?_⟩
      intro j hj
      rcases List.mem_append.1 hj with hold | hlast
      · exact hpost.started j hold
      · cases List.mem_singleton.1 hlast
        rw [Protocol.post_nodes_self]
  | classic m hclassic =>
      have htake := h.take i m
      rw [if_pos hclassic] at htake
      have havail : (classicNetwork configurationId addr).Available t i (.inr m) := by
        rw [Protocol.Available, h.inflight]
        exact List.mem_filter.2 ⟨(hin m rfl).1, hclassic⟩
      refine ⟨_, .inr ⟨_, Protocol.step_reactLabel havail⟩, ?_⟩
      have hpost := htake.post configurationId delay (i := i)
        (r := ({ w.nodes i with
            paxos := ((w.nodes i).paxos.receive m).1
            decided := (w.nodes i).decided || ((w.nodes i).paxos.receive m).1.decided },
          ((w.nodes i).paxos.receive m).2))
        (.all fun e he m' hm => isClassic_of_move (Paxos.receive_move _ m) he hm)
        (fun v hv => .inl hv) (htake.started i)
      rw [hnode]
      exact hpost
  | count m sender hsender hnew =>
      refine ⟨t, .inl rfl, ?_⟩
      exact (hskip _ rfl).stutter configurationId delay rfl (.none fun e he => by cases he) rfl fun v hv => by cases hv
  | decide m sender hsender hnew hquorum =>
      refine ⟨t, .inl rfl, ?_⟩
      refine (hskip _ rfl).stutter configurationId delay rfl (.none ?_) rfl ?_
      · intro e he m' hm
        cases List.mem_singleton.1 he
        cases hm
      · intro v hv
        cases List.mem_singleton.1 hv
        rcases hI.votes m (hin _ rfl).2 with ⟨a, _, ha, _⟩
        have hsa : sender = addr a := Option.some.inj (hsender.symm.trans ha)
        subst hsa
        -- The decision rests on a fast quorum of votes that were counted.
        have hcount : ((w.nodes i).countVote (addr a) m.endpoints).voteCount m.endpoints =
            (w.nodes i).voteCount m.endpoints + 1 := by
          simp [FastPaxos.countVote, FastPaxos.voteCount]
        refine FastDecided.of_count ?_
          (voteCount_countVote (hin _ rfl).2 ha hnew (hI.counted i) m.endpoints)
        rw [hI.size i] at hquorum
        rw [hcount]
        exact hquorum

end Reaction

/-- The classic part of every run of the fast network is a run of the classic network. -/
theorem Refines.reaches {ok : FastWorld N → NetAction N RapidRequest FastCommand → Prop}
    (hw : (fastNetwork configurationId addr delay).system.Reaches ok w) :
    ∃ t, (classicNetwork configurationId addr).system.Reachable t ∧ Refines addr w t := by
  refine hw.simulate ?_ ?_
  · intro w hw
    refine ⟨(classicNetwork configurationId addr).initial, rfl, ?_⟩
    rw [show w = (fastNetwork configurationId addr delay).initial from hw]
    exact ⟨rfl, rfl, rfl, fun d hd => (by cases hd), fun i hi => (by cases hi)⟩
  · intro w a w' t hw _ hR _ hstep
    rcases Protocol.step_cases hstep with ⟨i, input, _, havail, rfl⟩ | ⟨j, m, _, hin, rfl⟩
    · have hreact := hR.react configurationId delay (.reaches hw)
        (fast_react_move configurationId addr delay i input)
        (by
          rintro m rfl
          exact ⟨havail, Protocol.inflight_sent hw _ havail⟩)
      rcases hreact with ⟨t', hstay | ⟨b, hb⟩, hR'⟩
      · exact .inl (hstay ▸ hR')
      · exact .inr ⟨b, t', trivial, hb, hR'⟩
    · -- A classic message is lost in both networks, a fast one in the fast network only.
      have htake := hR.take j m
      by_cases hm : isClassic m
      · rw [if_pos hm] at htake
        have havail : (j, m) ∈ t.inflight := by
          rw [hR.inflight]
          exact List.mem_filter.2 ⟨hin, hm⟩
        exact .inr ⟨.lose j m, _, trivial, if_pos havail, htake⟩
      · rw [if_neg hm] at htake
        exact .inl htake

end Refinement

end Rapid
