import Rapid.Consensus.FastNetwork
import Rapid.Foundations.Poll

/-!
# FastQuorum — counting the votes of the fast round

What `handle_fast_round_proposal` computes over a sequence of messages, in terms of the poll that
the messages form: a message of the configuration with a sender is a ballot, and a sender's first
ballot counts. `Tally` relates the counters of the instance to the poll; from one step of it follows
which message decides, and from that the outcome of every sequence.
-/

namespace Rapid

open Foundations

/-! ## The poll -/

/-- The ballots among the messages, in the order of arrival. -/
def fastBallots (configurationId : Int64) (messages : List FastRoundPhase2bMessage) :
    List (Endpoint × List Endpoint) :=
  messages.filterMap fun m =>
    if m.configurationId = configurationId then m.sender.map fun sender => (sender, m.endpoints)
    else none

/-- The number of senders whose first vote carries exactly `v`. -/
def fastSupport (configurationId : Int64) (messages : List FastRoundPhase2bMessage)
    (v : List Endpoint) : Nat :=
  (Poll.supporters (fastBallots configurationId messages) v).card

/-- `N - floor((N - 1) / 4)`. -/
def fastQuorum (N : Nat) : Nat :=
  N - FastPaxos.faults N

theorem fastQuorum_pos {N : Nat} (hN : 1 ≤ N) : 0 < fastQuorum N := by
  unfold fastQuorum FastPaxos.faults
  omega

/-- Two fast quorums of `N` senders intersect. -/
theorem lt_two_fastQuorum {N : Nat} (hN : 1 ≤ N) : N < 2 * fastQuorum N := by
  unfold fastQuorum FastPaxos.faults
  omega

namespace FastPaxos

/-- The instance after a sequence of messages. -/
def handleAll (p : FastPaxos) (messages : List FastRoundPhase2bMessage) : FastPaxos :=
  messages.foldl (fun p m => (p.handleFastRoundProposal m).1) p

@[simp] theorem handleAll_append_singleton (p : FastPaxos) (messages : List FastRoundPhase2bMessage)
    (m : FastRoundPhase2bMessage) :
    p.handleAll (messages ++ [m]) = ((p.handleAll messages).handleFastRoundProposal m).1 := by
  simp [handleAll]

/-- The message after `messages` makes the instance decide `v`. -/
def DecidesOn (p : FastPaxos) (messages : List FastRoundPhase2bMessage) (m : FastRoundPhase2bMessage)
    (v : List Endpoint) : Prop :=
  .decision v ∈ ((p.handleAll messages).handleFastRoundProposal m).2

/-- One of the messages makes the instance decide `v`. -/
def DecidesIn (p : FastPaxos) (messages : List FastRoundPhase2bMessage) (v : List Endpoint) : Prop :=
  ∃ earlier m later, messages = earlier ++ m :: later ∧ p.DecidesOn earlier m v

end FastPaxos

/-! ## One message -/

section Ballots

variable {configurationId : Int64} {messages : List FastRoundPhase2bMessage}
  {m : FastRoundPhase2bMessage} {sender : Endpoint} {v : List Endpoint}

/-- A message of another configuration, or without a sender, is no ballot. -/
theorem fastBallots_append_void (h : m.configurationId ≠ configurationId ∨ m.sender = none) :
    fastBallots configurationId (messages ++ [m]) = fastBallots configurationId messages := by
  rcases h with hconfig | hsender
  · simp [fastBallots, hconfig]
  · simp [fastBallots, hsender]

theorem fastBallots_append_ballot (hconfig : m.configurationId = configurationId)
    (hsender : m.sender = some sender) :
    fastBallots configurationId (messages ++ [m]) =
      fastBallots configurationId messages ++ [(sender, m.endpoints)] := by
  simp [fastBallots, hconfig, hsender]

theorem fastSupport_le_append (later : List FastRoundPhase2bMessage) :
    fastSupport configurationId messages v ≤ fastSupport configurationId (messages ++ later) v := by
  unfold fastSupport
  have hsplit : fastBallots configurationId (messages ++ later) =
      fastBallots configurationId messages ++ fastBallots configurationId later :=
    List.filterMap_append
  rw [hsplit]
  exact Finset.card_le_card Poll.supporters_mono

end Ballots

namespace FastPaxos

theorem voteCount_countVote_eq (p : FastPaxos) (sender : Endpoint) (v w : List Endpoint) :
    (p.countVote sender v).voteCount w = p.voteCount w + if v = w then 1 else 0 := by
  by_cases hvw : v = w
  · subst hvw
    simp [countVote, voteCount]
  · simp [countVote, voteCount, Finmap.lookup_insert_of_ne _ (Ne.symm hvw), hvw]

/-- The first vote of a sender is counted, and decides if both thresholds are met. -/
theorem handleFastRoundProposal_of_new (p : FastPaxos) {m : FastRoundPhase2bMessage}
    {sender : Endpoint} (hconfig : m.configurationId = p.configurationId) (hopen : p.decided = false)
    (hsender : m.sender = some sender) (hnew : sender ∉ p.votesReceived) :
    p.handleFastRoundProposal m =
      if p.membershipSize - faults p.membershipSize ≤
            (p.countVote sender m.endpoints).votesReceived.card ∧
          p.membershipSize - faults p.membershipSize ≤ p.voteCount m.endpoints + 1 then
        ({ p.countVote sender m.endpoints with decided := true }, [.decision m.endpoints])
      else (p.countVote sender m.endpoints, []) := by
  unfold handleFastRoundProposal
  rw [if_neg (by simp [hconfig, hopen]), hsender]
  simp only [hnew, if_false]
  rfl

end FastPaxos

/-! ## The counters follow the poll -/

/-- While it is open, the instance knows the voters and the support of every list, and no list has a
fast quorum; it is closed because some list has one. -/
structure Tally (N : Nat) (configurationId : Int64) (p : FastPaxos)
    (messages : List FastRoundPhase2bMessage) : Prop where
  configuration : p.configurationId = configurationId
  size : p.membershipSize = N
  received : p.decided = false →
    p.votesReceived = Poll.voters (fastBallots configurationId messages)
  counted : p.decided = false → ∀ v, p.voteCount v = fastSupport configurationId messages v
  below : p.decided = false → ∀ v, fastSupport configurationId messages v < fastQuorum N
  reached : p.decided = true → ∃ v, fastQuorum N ≤ fastSupport configurationId messages v

section Tally

variable {N : Nat} {configurationId : Int64} {p : FastPaxos}
  {messages : List FastRoundPhase2bMessage}

theorem Tally.new (hN : 1 ≤ N) (addr : Endpoint) (delay : Duration) :
    Tally N configurationId (FastPaxos.new addr configurationId N delay) [] where
  configuration := rfl
  size := rfl
  received := fun _ => rfl
  counted := fun _ _ => rfl
  below := fun _ _ => fastQuorum_pos hN
  reached := fun h => by cases h

/-- Nothing is counted: the message is no ballot, or a void one. -/
theorem Tally.skip (h : Tally N configurationId p messages) {m : FastRoundPhase2bMessage}
    (hvoters : Poll.voters (fastBallots configurationId (messages ++ [m])) =
      Poll.voters (fastBallots configurationId messages))
    (hsupport : ∀ v, fastSupport configurationId (messages ++ [m]) v =
      fastSupport configurationId messages v) :
    Tally N configurationId p (messages ++ [m]) where
  configuration := h.configuration
  size := h.size
  received := fun hopen => (h.received hopen).trans hvoters.symm
  counted := fun hopen v => (h.counted hopen v).trans (hsupport v).symm
  below := fun hopen v => hsupport v ▸ h.below hopen v
  reached := fun hclosed => by
    rcases h.reached hclosed with ⟨v, hv⟩
    exact ⟨v, hsupport v ▸ hv⟩

/-- What a step shows: the next tally, and that `v` is decided if its support reaches a fast quorum
with this message. -/
structure TallyStep (N : Nat) (configurationId : Int64) (p : FastPaxos)
    (messages : List FastRoundPhase2bMessage) (m : FastRoundPhase2bMessage)
    (r : FastPaxos × List FastOutgoing) : Prop where
  tally : Tally N configurationId r.1 (messages ++ [m])
  decides : ∀ v, .decision v ∈ r.2 ↔ p.decided = false ∧
    fastSupport configurationId messages v < fastQuorum N ∧
    fastQuorum N ≤ fastSupport configurationId (messages ++ [m]) v

variable {m : FastRoundPhase2bMessage} {sender : Endpoint}

theorem Tally.skips (h : Tally N configurationId p messages)
    (hvoters : Poll.voters (fastBallots configurationId (messages ++ [m])) =
      Poll.voters (fastBallots configurationId messages))
    (hsupport : ∀ v, fastSupport configurationId (messages ++ [m]) v =
      fastSupport configurationId messages v) :
    TallyStep N configurationId p messages m (p, []) where
  tally := h.skip hvoters hsupport
  decides := by
    intro v
    rw [hsupport v]
    constructor
    · intro hv
      cases hv
    · rintro ⟨_, hlt, hle⟩
      exact absurd (lt_of_lt_of_le hlt hle) (lt_irrefl _)

/-- A decided instance counts no more. -/
theorem Tally.closed (h : Tally N configurationId p messages) (hclosed : p.decided = true) :
    TallyStep N configurationId p messages m (p, []) where
  tally := by
    refine ⟨h.configuration, h.size, ?_, ?_, ?_, ?_⟩
    · simp [hclosed]
    · simp [hclosed]
    · simp [hclosed]
    · intro _
      rcases h.reached hclosed with ⟨v, hv⟩
      exact ⟨v, le_trans hv (fastSupport_le_append [m])⟩
  decides := by simp [hclosed]

/-- The first vote of a sender raises the support of one list by one. -/
theorem Tally.support_append (h : Tally N configurationId p messages) (hopen : p.decided = false)
    (hconfig : m.configurationId = configurationId) (hsender : m.sender = some sender)
    (hnew : sender ∉ p.votesReceived) (v : List Endpoint) :
    fastSupport configurationId (messages ++ [m]) v =
      fastSupport configurationId messages v + if m.endpoints = v then 1 else 0 := by
  rw [h.received hopen] at hnew
  unfold fastSupport
  rw [fastBallots_append_ballot hconfig hsender, Poll.card_supporters_append_of_notMem hnew]

/-- The vote is counted. -/
theorem Tally.counts (h : Tally N configurationId p messages) (hopen : p.decided = false)
    (hconfig : m.configurationId = configurationId) (hsender : m.sender = some sender)
    (hnew : sender ∉ p.votesReceived) :
    (∀ v, (p.countVote sender m.endpoints).voteCount v =
        fastSupport configurationId (messages ++ [m]) v) ∧
      (p.countVote sender m.endpoints).votesReceived =
        Poll.voters (fastBallots configurationId (messages ++ [m])) := by
  constructor
  · intro v
    rw [FastPaxos.voteCount_countVote_eq, h.counted hopen, h.support_append hopen hconfig hsender hnew]
  · rw [fastBallots_append_ballot hconfig hsender, Poll.voters_append, ← h.received hopen]
    simp [FastPaxos.countVote, Poll.voters]

theorem Tally.count (h : Tally N configurationId p messages) (hopen : p.decided = false)
    (hconfig : m.configurationId = configurationId) (hsender : m.sender = some sender)
    (hnew : sender ∉ p.votesReceived)
    (hbelow : fastSupport configurationId (messages ++ [m]) m.endpoints < fastQuorum N) :
    TallyStep N configurationId p messages m (p.countVote sender m.endpoints, []) := by
  rcases h.counts hopen hconfig hsender hnew with ⟨hcount, hvoters⟩
  have hall : ∀ v, fastSupport configurationId (messages ++ [m]) v < fastQuorum N := by
    intro v
    by_cases hv : m.endpoints = v
    · exact hv ▸ hbelow
    · rw [h.support_append hopen hconfig hsender hnew, if_neg hv]
      exact h.below hopen v
  refine ⟨⟨h.configuration, h.size, fun _ => hvoters, fun _ => hcount, fun _ => hall, ?_⟩, ?_⟩
  · intro hclosed
    exact absurd (hopen.symm.trans hclosed) (by decide)
  · intro v
    constructor
    · intro hv
      cases hv
    · rintro ⟨_, _, hle⟩
      exact absurd (lt_of_lt_of_le (hall v) hle) (lt_irrefl _)

theorem Tally.decide (h : Tally N configurationId p messages) (hopen : p.decided = false)
    (hconfig : m.configurationId = configurationId) (hsender : m.sender = some sender)
    (hnew : sender ∉ p.votesReceived)
    (hreached : fastQuorum N ≤ fastSupport configurationId (messages ++ [m]) m.endpoints) :
    TallyStep N configurationId p messages m
      ({ p.countVote sender m.endpoints with decided := true }, [.decision m.endpoints]) := by
  refine ⟨⟨h.configuration, h.size, ?_, ?_, ?_, fun _ => ⟨m.endpoints, hreached⟩⟩, ?_⟩
  · simp
  · simp
  · simp
  · intro v
    constructor
    · intro hv
      cases List.mem_singleton.1 hv
      exact ⟨hopen, h.below hopen _, hreached⟩
    · rintro ⟨_, hlt, hle⟩
      -- Only the support of the list in the message has changed.
      have hv : m.endpoints = v := by
        by_contra hne
        rw [h.support_append hopen hconfig hsender hnew, if_neg hne] at hle
        exact absurd (lt_of_lt_of_le hlt hle) (lt_irrefl _)
      rw [hv]
      exact List.mem_singleton_self _

/-- A message of another configuration, or without a sender, is no ballot. -/
theorem Tally.void (h : Tally N configurationId p messages)
    (hvoid : m.configurationId ≠ configurationId ∨ m.sender = none) :
    TallyStep N configurationId p messages m (p.handleFastRoundProposal m) := by
  have hballots : fastBallots configurationId (messages ++ [m]) = fastBallots configurationId messages :=
    fastBallots_append_void hvoid
  have hsame : p.handleFastRoundProposal m = (p, []) := by
    rcases hvoid with hconfig | hsender
    · simp [FastPaxos.handleFastRoundProposal, h.configuration, hconfig]
    · simp [FastPaxos.handleFastRoundProposal, hsender]
  rw [hsame]
  exact h.skips (by rw [hballots]) fun v => by rw [fastSupport, hballots, fastSupport]

/-- The step lemma: what one message does to an instance that follows the poll. -/
theorem Tally.step (h : Tally N configurationId p messages) (m : FastRoundPhase2bMessage) :
    TallyStep N configurationId p messages m (p.handleFastRoundProposal m) := by
  cases hopen : p.decided with
  | true =>
      rw [p.handleFastRoundProposal_of_decided hopen]
      exact h.closed hopen
  | false =>
      by_cases hconfig : m.configurationId = configurationId
      · cases hsender : m.sender with
        | none => exact h.void (.inr hsender)
        | some sender =>
            by_cases hnew : sender ∈ p.votesReceived
            · -- A later ballot of the same sender is void.
              have hsame : p.handleFastRoundProposal m = (p, []) := by
                simp [FastPaxos.handleFastRoundProposal, hsender, hnew]
              have hknown := hnew
              rw [h.received hopen] at hknown
              have happend : fastBallots configurationId (messages ++ [m]) =
                  fastBallots configurationId messages ++ [(sender, m.endpoints)] :=
                fastBallots_append_ballot hconfig hsender
              rw [hsame]
              refine h.skips ?_ fun v => ?_
              · rw [happend, Poll.voters_append]
                simpa [Poll.voters] using hknown
              · rw [fastSupport, happend, Poll.supporters_append_of_mem hknown, fastSupport]
            · rcases h.counts hopen hconfig hsender hnew with ⟨hcount, hvoters⟩
              have hvotes : p.voteCount m.endpoints + 1 =
                  fastSupport configurationId (messages ++ [m]) m.endpoints := by
                rw [h.support_append hopen hconfig hsender hnew, if_pos rfl, h.counted hopen]
              have hsize : p.membershipSize - FastPaxos.faults p.membershipSize = fastQuorum N := by
                rw [h.size]
                rfl
              rw [p.handleFastRoundProposal_of_new (h.configuration.trans hconfig.symm).symm hopen
                hsender hnew, hsize]
              rw [hvoters, hvotes]
              split
              · rename_i hquorum
                exact h.decide hopen hconfig hsender hnew hquorum.2
              · -- The supporters are voters, so the second threshold is the one that is missed.
                rename_i hmissed
                refine h.count hopen hconfig hsender hnew (Nat.lt_of_not_le fun hreached => hmissed ?_)
                exact ⟨le_trans hreached (Finset.card_le_card Poll.supporters_subset), hreached⟩
      · exact h.void (.inl hconfig)

end Tally

/-! ## Sequences of messages -/

section Sequences

variable {N : Nat} {configurationId : Int64} {addr : Endpoint} {delay : Duration}
  {messages earlier : List FastRoundPhase2bMessage} {m : FastRoundPhase2bMessage} {v : List Endpoint}

theorem Tally.all (hN : 1 ≤ N) (messages : List FastRoundPhase2bMessage) :
    Tally N configurationId ((FastPaxos.new addr configurationId N delay).handleAll messages)
      messages := by
  induction messages using List.reverseRecOn with
  | nil => exact Tally.new hN addr delay
  | append_singleton messages m ih =>
      rw [FastPaxos.handleAll_append_singleton]
      exact (ih.step m).tally

theorem card_voters_le_append (later : List FastRoundPhase2bMessage) :
    (Poll.voters (fastBallots configurationId messages)).card ≤
      (Poll.voters (fastBallots configurationId (messages ++ later))).card := by
  have hsplit : fastBallots configurationId (messages ++ later) =
      fastBallots configurationId messages ++ fastBallots configurationId later :=
    List.filterMap_append
  rw [hsplit, Poll.voters_append]
  exact Finset.card_le_card Finset.subset_union_left

/-- With at most `N` senders the message that makes the support of a list reach a fast quorum is the
one that decides. -/
theorem decidesOn_iff (hN : 1 ≤ N)
    (hsenders : (Poll.voters (fastBallots configurationId (earlier ++ [m]))).card ≤ N) :
    (FastPaxos.new addr configurationId N delay).DecidesOn earlier m v ↔
      fastSupport configurationId earlier v < fastQuorum N ∧
        fastQuorum N ≤ fastSupport configurationId (earlier ++ [m]) v := by
  have htally : Tally N configurationId
      ((FastPaxos.new addr configurationId N delay).handleAll earlier) earlier := Tally.all hN earlier
  unfold FastPaxos.DecidesOn
  rw [(htally.step m).decides v]
  constructor
  · exact fun h => h.2
  · rintro ⟨hlt, hle⟩
    refine ⟨?_, hlt, hle⟩
    by_contra hclosed
    -- The list that was decided before has a fast quorum as well, so it is the same.
    rcases htally.reached (by simpa using hclosed) with ⟨w, hw⟩
    have hboth : v = w := by
      refine Poll.supporters_agree (lt_of_le_of_lt hsenders (lt_two_fastQuorum hN)) hle ?_
      exact le_trans hw (fastSupport_le_append [m])
    rw [hboth] at hlt
    exact absurd (lt_of_lt_of_le hlt hw) (lt_irrefl _)

/-- A support that is reached is reached with some message. -/
theorem exists_reaching (hN : 1 ≤ N) (hreached : fastQuorum N ≤ fastSupport configurationId messages v) :
    ∃ earlier m later, messages = earlier ++ m :: later ∧
      fastSupport configurationId earlier v < fastQuorum N ∧
        fastQuorum N ≤ fastSupport configurationId (earlier ++ [m]) v := by
  induction messages using List.reverseRecOn with
  | nil => exact absurd (lt_of_lt_of_le (fastQuorum_pos hN) hreached) (lt_irrefl 0)
  | append_singleton messages m ih =>
      by_cases hbefore : fastQuorum N ≤ fastSupport configurationId messages v
      · rcases ih hbefore with ⟨earlier, m', later, rfl, hcross⟩
        exact ⟨earlier, m', later ++ [m], by simp, hcross⟩
      · exact ⟨messages, m, [], rfl, Nat.lt_of_not_le hbefore, hreached⟩

/-- A list is decided exactly if its support reaches a fast quorum. -/
theorem decidesIn_iff (hN : 1 ≤ N)
    (hsenders : (Poll.voters (fastBallots configurationId messages)).card ≤ N) :
    (FastPaxos.new addr configurationId N delay).DecidesIn messages v ↔
      fastQuorum N ≤ fastSupport configurationId messages v := by
  have hpart : ∀ earlier m later, messages = earlier ++ m :: later →
      (Poll.voters (fastBallots configurationId (earlier ++ [m]))).card ≤ N ∧
        fastSupport configurationId (earlier ++ [m]) v ≤ fastSupport configurationId messages v := by
    intro earlier m later hsplit
    have hparts : messages = (earlier ++ [m]) ++ later := by
      simpa using hsplit
    rw [hparts] at hsenders ⊢
    exact ⟨le_trans (card_voters_le_append later) hsenders, fastSupport_le_append later⟩
  constructor
  · rintro ⟨earlier, m, later, hsplit, hdecides⟩
    rcases hpart earlier m later hsplit with ⟨hcard, hle⟩
    exact le_trans ((decidesOn_iff hN hcard).1 hdecides).2 hle
  · intro hreached
    rcases exists_reaching hN hreached with ⟨earlier, m, later, hsplit, hcross⟩
    exact ⟨earlier, m, later, hsplit, (decidesOn_iff hN (hpart earlier m later hsplit).1).2 hcross⟩

theorem decided_iff (hN : 1 ≤ N) :
    ((FastPaxos.new addr configurationId N delay).handleAll messages).decided = true ↔
      ∃ v, fastQuorum N ≤ fastSupport configurationId messages v := by
  have htally : Tally N configurationId
      ((FastPaxos.new addr configurationId N delay).handleAll messages) messages :=
    Tally.all hN messages
  constructor
  · exact htally.reached
  · rintro ⟨v, hv⟩
    by_contra hopen
    exact absurd (lt_of_lt_of_le (htally.below (by simpa using hopen) v) hv) (lt_irrefl _)

/-- Without contradictions the order of the messages does not matter. -/
theorem fastSupport_perm {messages' : List FastRoundPhase2bMessage}
    (hconsistent : Poll.Consistent (fastBallots configurationId messages))
    (hperm : messages.Perm messages') :
    fastSupport configurationId messages' v = fastSupport configurationId messages v := by
  unfold fastSupport
  rw [Poll.supporters_perm hconsistent (hperm.filterMap _)]
  rfl

end Sequences

/-- The fast round over any sequence of messages from at most `N` senders: a list is decided if and
only if at some point its support is a fast quorum, the message that completes the quorum decides it,
and in sequences where no sender contradicts itself any order gives the same outcome. -/
theorem fastRound_exact {N : Nat} (hN : 1 ≤ N) (addr : Endpoint) (configurationId : Int64)
    (delay : Duration) {messages : List FastRoundPhase2bMessage}
    (hsenders : (Poll.voters (fastBallots configurationId messages)).card ≤ N) :
    (∀ v, (FastPaxos.new addr configurationId N delay).DecidesIn messages v ↔
      ∃ earlier later, messages = earlier ++ later ∧
        fastQuorum N ≤ fastSupport configurationId earlier v) ∧
    (∀ earlier m later v, messages = earlier ++ m :: later →
      ((FastPaxos.new addr configurationId N delay).DecidesOn earlier m v ↔
        fastSupport configurationId earlier v < fastQuorum N ∧
          fastQuorum N ≤ fastSupport configurationId (earlier ++ [m]) v)) ∧
    (Poll.Consistent (fastBallots configurationId messages) → ∀ messages', messages.Perm messages' →
      ((FastPaxos.new addr configurationId N delay).handleAll messages').decided =
          ((FastPaxos.new addr configurationId N delay).handleAll messages).decided ∧
        ∀ v, (FastPaxos.new addr configurationId N delay).DecidesIn messages' v ↔
          (FastPaxos.new addr configurationId N delay).DecidesIn messages v) := by
  refine ⟨fun v => ?_, ?_, ?_⟩
  · rw [decidesIn_iff hN hsenders]
    constructor
    · exact fun hreached => ⟨messages, [], by simp, hreached⟩
    · rintro ⟨earlier, later, rfl, hreached⟩
      exact le_trans hreached (fastSupport_le_append later)
  · intro earlier m later v hsplit
    refine decidesOn_iff hN (le_trans (card_voters_le_append later) ?_)
    simpa [hsplit] using hsenders
  · intro hconsistent messages' hperm
    -- No member votes twice with different lists, so the order does not matter.
    have hsame : ∀ v, fastSupport configurationId messages' v =
        fastSupport configurationId messages v := fun v => fastSupport_perm hconsistent hperm
    have hsenders' : (Poll.voters (fastBallots configurationId messages')).card ≤ N := by
      have hvoters : Poll.voters (fastBallots configurationId messages) =
          Poll.voters (fastBallots configurationId messages') :=
        Poll.voters_perm (hperm.filterMap _)
      rwa [← hvoters]
    refine ⟨?_, fun v => ?_⟩
    · rw [Bool.eq_iff_iff, decided_iff hN, decided_iff hN]
      simp [hsame]
    · rw [decidesIn_iff hN hsenders', decidesIn_iff hN hsenders, hsame]

/-! ## Five members -/

section Sample

def fiveVoter (i : Nat) : Endpoint := ⟨[97], Int32.ofNat i⟩

def fiveBallot (i : Nat) (configurationId : Int64) (v : List Endpoint) : FastRoundPhase2bMessage where
  sender := some (fiveVoter i)
  configurationId := configurationId
  endpoints := v

/-- One sender votes in another configuration and one votes twice before the fourth vote arrives. -/
def fourOfFive : List FastRoundPhase2bMessage :=
  [fiveBallot 1 7 [fiveVoter 9], fiveBallot 2 8 [fiveVoter 9], fiveBallot 1 7 [fiveVoter 8],
    fiveBallot 3 7 [fiveVoter 9], fiveBallot 4 7 [fiveVoter 9], fiveBallot 2 7 [fiveVoter 9]]

theorem fourOfFive_decides :
    (FastPaxos.new (fiveVoter 1) 7 5 0).DecidesIn fourOfFive [fiveVoter 9] :=
  ((fastRound_exact (N := 5) (by decide) (fiveVoter 1) 7 0 (by decide)).1 [fiveVoter 9]).2
    ⟨fourOfFive, [], rfl, by decide⟩

end Sample

end Rapid
