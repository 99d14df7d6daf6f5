import Rapid.Consensus.Instance
import Rapid.Foundations.History
import Rapid.Xxh64Reference

/-!
# Promises — what a Phase1b message says and what it forbids

A `Phase1bMessage` of rank `r` is a promise of its acceptor:

* it reports the acceptor's last vote, so that every vote sent out so far is either the reported
  one or superseded by a vote of a higher rank;
* no vote below `r` is sent out afterwards.

`handle_phase1a` and `handle_phase2a` respect both. `propose` does not look: it sends a vote at the
fast rank also where `register_fast_round_vote` has not recorded it, and records it over a vote of
a higher rank where the round is still 1. `FastVoteFits` is the condition on a call of `propose`
under which neither happens; runs whose proposals all meet it keep every promise.
-/

namespace Rapid

open Foundations

/-! ## Votes and promises among the emissions -/

/-- The vote that an emission carries. -/
def votesFor : PaxosOutgoing → Option (Rank × List Endpoint)
  | .broadcast ⟨some (.phase2bMessage m)⟩ => m.rnd.map fun rnd => (rnd, m.endpoints)
  | .broadcast ⟨some (.fastRoundPhase2bMessage m)⟩ => some (fastRank, m.endpoints)
  | _ => none

/-- The promise that an emission carries. -/
def promises : PaxosOutgoing → Option Phase1bMessage
  | .unicast _ ⟨some (.phase1bMessage m)⟩ => some m
  | _ => none

/-- `v` was voted for at rank `k` in one of the emissions. -/
def Cast (outs : List PaxosOutgoing) (k : Rank) (v : List Endpoint) : Prop :=
  ∃ out ∈ outs, votesFor out = some (k, v)

/-- A promise for a classic rank `r` was given in one of the emissions. -/
def PromisedAt (outs : List PaxosOutgoing) (r : Rank) : Prop :=
  ∃ out ∈ outs, ∃ m, promises out = some m ∧ m.rnd = some r ∧ 2 ≤ r.round

/-- A vote was sent out before, and the promise reports it unless a later one superseded it. -/
def ReportsVotes (earlier : List PaxosOutgoing) (m : Phase1bMessage) (r : Rank) : Prop :=
  ∀ k v, Cast earlier k v → k ≤ r →
    (m.vrnd = some k ∧ m.vval = v) ∨ ∃ k' v', Cast earlier k' v' ∧ k < k'

/-- Promises for classic ranks are truthful when given, and no vote is sent out below a rank that was
promised before. -/
def PromisesKept (outs : List PaxosOutgoing) : Prop :=
  Past (fun earlier out =>
    (∀ m r, promises out = some m → m.rnd = some r → 2 ≤ r.round → ReportsVotes earlier m r) ∧
      ∀ k v r, votesFor out = some (k, v) → PromisedAt earlier r → ¬ k < r) outs

section Emissions

variable {outs : List PaxosOutgoing} {out : PaxosOutgoing} {k r : Rank} {v : List Endpoint}

@[simp] theorem not_cast_nil : ¬ Cast [] k v := by
  simp [Cast]

theorem cast_append_singleton :
    Cast (outs ++ [out]) k v ↔ Cast outs k v ∨ votesFor out = some (k, v) := by
  simp [Cast, or_and_right, exists_or]

theorem promisedAt_append_singleton :
    PromisedAt (outs ++ [out]) r ↔
      PromisedAt outs r ∨ ∃ m, promises out = some m ∧ m.rnd = some r ∧ 2 ≤ r.round := by
  simp [PromisedAt, or_and_right, exists_or]

end Emissions

/-! ## What a run keeps -/

/-- How the acceptor's part of a machine relates to what was sent out so far. -/
structure Promising (p : Paxos) (outs : List PaxosOutgoing) : Prop where
  below : p.vrnd ≤ p.rnd
  /-- A recorded vote was sent out. -/
  sent : ⟨0, 0⟩ < p.vrnd → Cast outs p.vrnd p.vval
  /-- A vote that was sent out is the recorded one, or the recorded one supersedes it. -/
  recorded : ∀ k v, Cast outs k v →
    (k = p.vrnd ∧ v = p.vval) ∨ (k < p.vrnd ∧ Cast outs p.vrnd p.vval)
  promised : ∀ r, PromisedAt outs r → r ≤ p.rnd
  kept : PromisesKept outs

/-- The condition on a call of `propose`: no promise was given for a classic rank, and the fast vote
is recorded over a lower one, is the recorded one, or is not recorded because a higher one is. -/
def FastVoteFits (p : Paxos) (outs : List PaxosOutgoing) (proposal : List Endpoint) : Prop :=
  (¬ ∃ r, PromisedAt outs r) ∧
    ((p.vrnd = fastRank ∧ p.vval = proposal) ∨
      if p.rnd.round > 1 then fastRank < p.vrnd else p.vrnd < fastRank)

section Steps

variable {p p' : Paxos} {outs : List PaxosOutgoing} {out : PaxosOutgoing} {k rank : Rank}
  {v : List Endpoint}

/-- The coordinator's and the learner's part are of no concern. -/
theorem Promising.congr (h : Promising p outs) (hrnd : p'.rnd = p.rnd)
    (hvrnd : p'.vrnd = p.vrnd) (hvval : p'.vval = p.vval) : Promising p' outs where
  below := by simpa [hrnd, hvrnd] using h.below
  sent := by simpa [hvrnd, hvval] using h.sent
  recorded := by simpa [hvrnd, hvval] using h.recorded
  promised := by simpa [hrnd] using h.promised
  kept := h.kept

/-- Nothing sent out is above the recorded vote. -/
theorem Promising.le_recorded (h : Promising p outs) (hcast : Cast outs k v) : k ≤ p.vrnd := by
  rcases h.recorded k v hcast with ⟨rfl, _⟩ | ⟨hlt, _⟩
  · exact le_refl _
  · exact le_of_lt hlt

/-- `handle_phase1a` raises the round. -/
theorem Promising.raise (h : Promising p outs) (hlt : p.rnd < rank) :
    Promising { p with rnd := rank } outs where
  below := le_of_lt (lt_of_le_of_lt h.below hlt)
  sent := h.sent
  recorded := h.recorded
  promised := fun r hr => le_of_lt (lt_of_le_of_lt (h.promised r hr) hlt)
  kept := h.kept

/-- An emission without a vote: if it is a promise, it is one for the current round that reports
the recorded vote. -/
theorem Promising.emit (h : Promising p outs) (hvote : votesFor out = none)
    (hpromise : ∀ m r, promises out = some m → m.rnd = some r → 2 ≤ r.round →
      r ≤ p.rnd ∧ m.vrnd = some p.vrnd ∧ m.vval = p.vval) : Promising p (outs ++ [out]) where
  below := h.below
  sent := fun hpos => cast_append_singleton.2 (Or.inl (h.sent hpos))
  recorded := by
    intro k v hcast
    rcases cast_append_singleton.1 hcast with hold | hnew
    · rcases h.recorded k v hold with hsame | ⟨hlt, hsent⟩
      · exact Or.inl hsame
      · exact Or.inr ⟨hlt, cast_append_singleton.2 (Or.inl hsent)⟩
    · simp [hvote] at hnew
  promised := by
    intro r hr
    rcases promisedAt_append_singleton.1 hr with hold | ⟨m, hm, hrnd, hround⟩
    · exact h.promised r hold
    · exact (hpromise m r hm hrnd hround).1
  kept := by
    refine past_append_singleton.2 ⟨h.kept, ?_, fun k v r hnew => ?_⟩
    · -- The recorded vote is the highest one sent out.
      intro m r hm hrnd hround k v hcast _
      rcases hpromise m r hm hrnd hround with ⟨_, hvrnd, hvval⟩
      rcases h.recorded k v hcast with ⟨rfl, rfl⟩ | ⟨hlt, hsent⟩
      · exact Or.inl ⟨hvrnd, hvval⟩
      · exact Or.inr ⟨p.vrnd, p.vval, hsent, hlt⟩
    · simp [hvote] at hnew

/-- A vote is sent out and fits the record `p'` after the call. -/
theorem Promising.vote (h : Promising p outs) (hvote : votesFor out = some (k, v))
    (hpromise : promises out = none) (hbelow : p'.vrnd ≤ p'.rnd)
    (hpromised : ∀ r, PromisedAt outs r → r ≤ p'.rnd ∧ ¬ k < r)
    (hrecord : (p'.vrnd = k ∧ p'.vval = v ∧ (p.vrnd < k ∨ p.vrnd = k ∧ p.vval = v)) ∨
      (p'.vrnd = p.vrnd ∧ p'.vval = p.vval ∧ k < p.vrnd ∧ ⟨0, 0⟩ < p.vrnd)) :
    Promising p' (outs ++ [out]) where
  below := hbelow
  sent := by
    intro hpos
    rcases hrecord with ⟨rfl, rfl, _⟩ | ⟨hvrnd, hvval, _, hpos'⟩
    · exact cast_append_singleton.2 (Or.inr hvote)
    · simpa [hvrnd, hvval] using cast_append_singleton.2 (Or.inl (h.sent hpos'))
  recorded := by
    intro k' v' hcast
    rcases hrecord with ⟨rfl, rfl, hold⟩ | ⟨hvrnd, hvval, hlt, hpos⟩
    · -- The vote is the new record.
      have hnew : Cast (outs ++ [out]) p'.vrnd p'.vval := cast_append_singleton.2 (Or.inr hvote)
      rcases cast_append_singleton.1 hcast with hcast | heq
      · -- The old record is not above the new vote, and nothing sent out is above the old record.
        rcases hold with hlt | ⟨hvrnd, hvval⟩
        · rcases h.recorded k' v' hcast with ⟨rfl, _⟩ | ⟨hlt', _⟩
          · exact Or.inr ⟨hlt, hnew⟩
          · exact Or.inr ⟨lt_trans hlt' hlt, hnew⟩
        · rcases h.recorded k' v' hcast with ⟨rfl, rfl⟩ | ⟨hlt', _⟩
          · exact Or.inl ⟨hvrnd, hvval⟩
          · exact Or.inr ⟨hvrnd ▸ hlt', hnew⟩
      · have hpair := hvote.symm.trans heq
        simp only [Option.some.injEq, Prod.mk.injEq] at hpair
        exact Or.inl ⟨hpair.1.symm, hpair.2.symm⟩
    · -- The vote goes out below the record, which stays.
      have hsent : Cast (outs ++ [out]) p.vrnd p.vval :=
        cast_append_singleton.2 (Or.inl (h.sent hpos))
      simp only [hvrnd, hvval]
      rcases cast_append_singleton.1 hcast with hcast | heq
      · rcases h.recorded k' v' hcast with hsame | ⟨hlt', _⟩
        · exact Or.inl hsame
        · exact Or.inr ⟨hlt', hsent⟩
      · have hpair := hvote.symm.trans heq
        simp only [Option.some.injEq, Prod.mk.injEq] at hpair
        exact Or.inr ⟨hpair.1 ▸ hlt, hsent⟩
  promised := by
    intro r hr
    rcases promisedAt_append_singleton.1 hr with hold | ⟨m, hm, _⟩
    · exact (hpromised r hold).1
    · simp [hpromise] at hm
  kept := by
    refine past_append_singleton.2 ⟨h.kept, fun m r hm => ?_, ?_⟩
    · simp [hpromise] at hm
    · intro k' v' r heq hr
      have hpair := hvote.symm.trans heq
      simp only [Option.some.injEq, Prod.mk.injEq] at hpair
      exact hpair.1 ▸ (hpromised r hr).2

/-- Neither a vote nor a promise is sent out, and the acceptor's part stays as it is. -/
theorem Promising.silent (h : Promising p outs) (hvote : votesFor out = none)
    (hpromise : promises out = none) (hrnd : p'.rnd = p.rnd) (hvrnd : p'.vrnd = p.vrnd)
    (hvval : p'.vval = p.vval) : Promising p' (outs ++ [out]) := by
  refine (h.emit hvote fun m r hm => ?_).congr hrnd hvrnd hvval
  simp [hpromise] at hm

/-- A call of `propose` whose vote fits. -/
theorem Promising.propose (h : Promising p outs) {proposal : List Endpoint}
    (hfits : FastVoteFits p outs proposal) {m : FastRoundPhase2bMessage}
    (hm : m.endpoints = proposal) :
    Promising (p.registerFastRoundVote proposal)
      (outs ++ [.broadcast ⟨some (.fastRoundPhase2bMessage m)⟩]) := by
  rcases hfits with ⟨hfree, hrecord⟩
  have hvote : votesFor (.broadcast ⟨some (.fastRoundPhase2bMessage m)⟩) =
      some (fastRank, proposal) := by
    simp [votesFor, hm]
  have hpromised : ∀ (self : Paxos) r, PromisedAt outs r → r ≤ self.rnd ∧ ¬ fastRank < r :=
    fun _ r hr => absurd ⟨r, hr⟩ hfree
  unfold Paxos.registerFastRoundVote
  split
  · -- The vote is not recorded.
    rename_i hround
    refine h.vote hvote rfl h.below (hpromised _) ?_
    rcases hrecord with hsame | hhigh
    · exact Or.inl ⟨hsame.1, hsame.2, Or.inr hsame⟩
    · rw [if_pos hround] at hhigh
      exact Or.inr ⟨rfl, rfl, hhigh, lt_trans (by decide) hhigh⟩
  · -- The vote becomes the record.
    rename_i hround
    refine h.vote hvote rfl (le_refl _) (hpromised _) (Or.inl ⟨rfl, rfl, ?_⟩)
    rcases hrecord with hsame | hlow
    · exact Or.inr hsame
    · rw [if_neg hround] at hlow
      exact Or.inl hlow

variable [Xxh64]

/-- The classic calls: only `handle_phase1a` promises, only `handle_phase2a` votes. -/
theorem Promising.move (h : Promising p outs) {input : PaxosCommand ⊕ RapidRequest}
    {new : List PaxosOutgoing} (hmove : Paxos.Move p input p' new)
    (hinput : ∀ vote, input ≠ .inl (.registerFastRoundVote vote)) : Promising p' (outs ++ new) := by
  cases hmove with
  | idle => simpa using h
  | register vote => exact absurd rfl (hinput vote)
  | prepare => exact h.silent rfl rfl rfl rfl rfl
  | promiseSilent m rank hlt => simpa using h.raise hlt
  | promise m rank sender hlt =>
      refine (h.raise hlt).emit rfl ?_
      intro m' r hm' hr _
      cases hm'
      cases hr
      exact ⟨le_refl _, rfl, rfl⟩
  | collect =>
      rw [List.append_nil]
      exact h.congr rfl rfl rfl
  | propose => exact h.silent rfl rfl rfl rfl rfl
  | accept m rnd hrnd hle hne =>
      -- `vrnd` is at most the promise, and another round than this one.
      have hlt : p.vrnd < rnd := lt_of_le_of_ne (le_trans h.below hle) hne
      refine h.vote (k := rnd) (v := m.vval) rfl rfl (le_refl _) ?_ (Or.inl ⟨rfl, rfl, Or.inl hlt⟩)
      intro r hr
      have hpromised : r ≤ rnd := le_trans (h.promised r hr) hle
      exact ⟨hpromised, not_lt.2 hpromised⟩
  | learn =>
      rw [List.append_nil]
      exact h.congr rfl rfl rfl
  | decide => exact h.silent rfl rfl rfl rfl rfl

end Steps

/-! ## Runs -/

section Runs

variable [Xxh64] {addr : Endpoint} {configurationId : Int64} {membershipSize : Nat} {delay : Duration}

/-- The condition on a call: a proposal's fast vote fits. -/
def VoteFits (r : InstanceRun) : InstanceCall → Prop
  | .inl (.propose _ proposal) => FastVoteFits r.self.paxos (emissions r.history) proposal
  | _ => True

theorem Promising.call {r : InstanceRun} {c : InstanceCall}
    (h : Promising r.self.paxos (emissions r.history)) (hfits : VoteFits r c) :
    Promising (r.self.afterCall c).paxos (emissions r.history ++ r.self.emits c) := by
  have hmove := r.self.call_move c
  generalize r.self.afterCall c = self' at hmove ⊢
  generalize r.self.emits c = new at hmove ⊢
  cases hmove with
  | idle => simpa using h
  | propose jitter proposal => exact h.propose hfits rfl
  | startClassic => exact h.move (Paxos.startPhase1a_move _) (by rintro vote ⟨⟩)
  | classic m => exact h.move (Paxos.receive_move _ m) (by rintro vote ⟨⟩)
  | count =>
      rw [List.append_nil]
      exact h.congr rfl rfl rfl
  | decide => exact h.silent rfl rfl rfl rfl rfl

theorem Promising.reaches {r : InstanceRun}
    (h : System.Reaches (instanceSystem addr configurationId membershipSize delay) VoteFits r) :
    Promising r.self.paxos (emissions r.history) := by
  refine h.invariant (I := fun r => Promising r.self.paxos (emissions r.history)) ?_ ?_
  · rintro r rfl
    refine ⟨le_refl _, fun hpos => absurd hpos (lt_irrefl _), ?_, ?_, past_nil⟩
    · intro k v hcast
      exact absurd hcast not_cast_nil
    · rintro k ⟨out, hout, _⟩
      cases hout
  · intro r c r' _ hI hfits hstep
    cases hstep
    simpa using hI.call hfits

/-- Runs whose proposals all fit keep every promise. -/
theorem promises_kept {r : InstanceRun}
    (h : System.Reaches (instanceSystem addr configurationId membershipSize delay) VoteFits r) :
    PromisesKept (emissions r.history) :=
  (Promising.reaches h).kept

end Runs

/-! ## A proposal that does not fit

After the first proposal that does not fit, one `Phase1aMessage` of any higher classic rank shows a
broken promise. -/

section Broken

variable [Xxh64] {r : InstanceRun} {jitter : Duration} {proposal : List Endpoint} {rank : Rank}

/-- The request for a promise of rank `rank`, sent by `sender`. -/
def promiseRequest (p : Paxos) (sender : Endpoint) (rank : Rank) : RapidRequest :=
  ⟨some (.phase1aMessage
    { configurationId := p.configurationId, sender := some sender, rank := some rank })⟩

omit [Xxh64] in
theorem handlePhase1a_promises {p : Paxos} (hlt : p.rnd < rank) (sender : Endpoint) :
    p.handlePhase1a
        { configurationId := p.configurationId, sender := some sender, rank := some rank } =
      ({ p with rnd := rank }, [.unicast sender ⟨some (.phase1bMessage (p.promiseMessage rank))⟩]) := by
  simp [Paxos.handlePhase1a, Paxos.promiseMessage, hlt]

omit [Xxh64] in
/-- A proposal that does not fit leaves a vote that the next promise neither reports nor knows to be
superseded. -/
theorem Promising.unfit {p : Paxos} {outs : List PaxosOutgoing} (h : Promising p outs)
    (hunfit : ¬ ((p.vrnd = fastRank ∧ p.vval = proposal) ∨
      if p.rnd.round > 1 then fastRank < p.vrnd else p.vrnd < fastRank))
    (hround : 2 ≤ rank.round) (hlt : p.rnd < rank) {vote : PaxosOutgoing}
    (hvote : votesFor vote = some (fastRank, proposal)) :
    ¬ ReportsVotes (outs ++ [vote]) ((p.registerFastRoundVote proposal).promiseMessage rank)
      rank := by
  intro hreports
  rcases not_or.1 hunfit with ⟨hdiffers, hhigh⟩
  have hvoteCast : Cast (outs ++ [vote]) fastRank proposal := cast_append_singleton.2 (Or.inr hvote)
  unfold Paxos.registerFastRoundVote at hreports
  split at hreports
  · -- The fast vote itself is missing in the report.
    rename_i hclassic
    have hle : p.vrnd ≤ fastRank := by
      rw [if_pos hclassic] at hhigh
      exact not_lt.1 hhigh
    have hbelow : fastRank ≤ rank := le_of_lt (fastRank_lt (lt_of_lt_of_le (by decide) hround))
    rcases hreports fastRank proposal hvoteCast hbelow with ⟨hvrnd, hvval⟩ | ⟨k, v, hcast, habove⟩
    · exact hdiffers ⟨Option.some.inj hvrnd, hvval⟩
    · rcases cast_append_singleton.1 hcast with hold | hnew
      · exact absurd (lt_of_lt_of_le habove (le_trans (h.le_recorded hold) hle)) (lt_irrefl _)
      · rw [hvote] at hnew
        cases hnew
        exact lt_irrefl _ habove
  · -- The vote that was recorded before is missing in the report.
    rename_i hfast
    have hle : fastRank ≤ p.vrnd := by
      rw [if_neg hfast] at hhigh
      exact not_lt.1 hhigh
    have hold : Cast (outs ++ [vote]) p.vrnd p.vval :=
      cast_append_singleton.2 (Or.inl (h.sent (lt_of_lt_of_le (by decide) hle)))
    have hbelow : p.vrnd ≤ rank := le_trans h.below (le_of_lt hlt)
    rcases hreports p.vrnd p.vval hold hbelow with ⟨hvrnd, hvval⟩ | ⟨k, v, hcast, habove⟩
    · exact hdiffers ⟨(Option.some.inj hvrnd).symm, hvval.symm⟩
    · rcases cast_append_singleton.1 hcast with hcast | hnew
      · exact absurd (lt_of_lt_of_le habove (h.le_recorded hcast)) (lt_irrefl _)
      · rw [hvote] at hnew
        cases hnew
        exact absurd (lt_of_lt_of_le habove hle) (lt_irrefl _)

omit [Xxh64] in
theorem registerFastRoundVote_rnd_lt {p : Paxos} (hround : 2 ≤ rank.round) (hlt : p.rnd < rank) :
    (p.registerFastRoundVote proposal).rnd < rank := by
  unfold Paxos.registerFastRoundVote
  split
  · exact hlt
  · exact fastRank_lt (lt_of_lt_of_le (by decide) hround)

omit [Xxh64] in
@[simp] theorem registerFastRoundVote_configurationId (p : Paxos) :
    (p.registerFastRoundVote proposal).configurationId = p.configurationId := by
  unfold Paxos.registerFastRoundVote
  split <;> rfl

/-- The instance answers the request with a promise, also right after a proposal. -/
theorem emits_promiseRequest {p : FastPaxos} (hround : 2 ≤ rank.round) (hlt : p.paxos.rnd < rank)
    (sender : Endpoint) :
    (p.afterCall (.inl (.propose jitter proposal))).emits (.inr (promiseRequest p.paxos sender rank)) =
      [.unicast sender ⟨some (.phase1bMessage
        ((p.paxos.registerFastRoundVote proposal).promiseMessage rank))⟩] := by
  have hanswer := handlePhase1a_promises (p := p.paxos.registerFastRoundVote proposal)
    (registerFastRoundVote_rnd_lt hround hlt) sender
  rw [registerFastRoundVote_configurationId] at hanswer
  show ((((p.paxos.registerFastRoundVote proposal).handlePhase1a _).2.map wrap).filterMap
    FastOutgoing.emission?) = _
  rw [FastPaxos.filterMap_emission?_map_wrap, hanswer]

/-- The condition cannot be weakened: a proposal that does not fit breaks a promise, at once or with the
next promise of a higher classic rank. -/
theorem promises_broken {addr : Endpoint} {configurationId : Int64} {membershipSize : Nat}
    {delay : Duration}
    (h : System.Reaches (instanceSystem addr configurationId membershipSize delay) VoteFits r)
    (hunfit : ¬ VoteFits r (.inl (.propose jitter proposal))) (hround : 2 ≤ rank.round)
    (hlt : r.self.paxos.rnd < rank) (sender : Endpoint) :
    ∃ r', (instanceSystem addr configurationId membershipSize delay).exec r
        [.inl (.propose jitter proposal), .inr (promiseRequest r.self.paxos sender rank)] = some r' ∧
      ¬ PromisesKept (emissions r'.history) := by
  refine ⟨_, rfl, ?_⟩
  have hI := Promising.reaches h
  have hpromise : (r.self.afterCall (.inl (.propose jitter proposal))).emits
      (.inr (promiseRequest r.self.paxos sender rank)) =
        [.unicast sender ⟨some (.phase1bMessage
          ((r.self.paxos.registerFastRoundVote proposal).promiseMessage rank))⟩] :=
    emits_promiseRequest hround hlt sender
  intro hkept
  rw [emissions_append, emissions_append, hpromise] at hkept
  rcases past_append_singleton.1 hkept with ⟨hvoted, htruthful, _⟩
  rcases past_append_singleton.1 hvoted with ⟨_, _, hbelow⟩
  have hfree : ¬ ∃ r', PromisedAt (emissions r.history) r' := by
    rintro ⟨r', hr'⟩
    -- The fast vote is below a promise given before.
    have hclassic : fastRank < r' := by
      rcases hr' with ⟨_, _, _, _, _, hr'⟩
      exact fastRank_lt (lt_of_lt_of_le (by decide) hr')
    exact hbelow fastRank proposal r' rfl hr' hclassic
  exact hI.unfit (fun hfits => hunfit ⟨hfree, hfits⟩) hround hlt rfl (htruthful _ rank rfl rfl hround)

end Broken

/-! ## Two runs of three members -/

section Sample

attribute [local instance] xxh64Reference

def promiser : Endpoint := ⟨[97], 1⟩

def coordinator : Endpoint := ⟨[98], 2⟩

def promiserSystem : System InstanceRun InstanceCall :=
  instanceSystem promiser 7 3 0

def promiserStart : InstanceRun :=
  ⟨FastPaxos.new promiser 7 3 0, []⟩

def secondRoundRequest : RapidRequest :=
  promiseRequest (Paxos.new promiser 7 3) coordinator ⟨2, 5⟩

/-- Proposing first and promising afterwards is fine. -/
def proposeThenPromise : List InstanceCall :=
  [.inl (.propose 0 [coordinator]), .inr secondRoundRequest]

def promiseThenPropose : List InstanceCall :=
  [.inr secondRoundRequest, .inl (.propose 0 [coordinator])]

theorem proposeThenPromise_reaches :
    ∃ r, promiserSystem.exec promiserStart proposeThenPromise = some r ∧
      System.Reaches promiserSystem VoteFits r := by
  have hfits : VoteFits promiserStart (.inl (.propose 0 [coordinator])) := by
    refine ⟨?_, Or.inr (by decide)⟩
    rintro ⟨r, out, hout, _⟩
    cases hout
  exact ⟨_, rfl, .step (a := .inr secondRoundRequest) (.step (.start rfl) hfits rfl) trivial rfl⟩

theorem proposeThenPromise_keeps :
    ∃ r, promiserSystem.exec promiserStart proposeThenPromise = some r ∧
      PromisesKept (emissions r.history) := by
  rcases proposeThenPromise_reaches with ⟨r, hrun, hreach⟩
  exact ⟨r, hrun, promises_kept hreach⟩

/-- Promising first and proposing afterwards: the fast vote is below the promise. -/
theorem promiseThenPropose_breaks :
    ∃ r, promiserSystem.exec promiserStart promiseThenPropose = some r ∧
      ¬ PromisesKept (emissions r.history) := by
  refine ⟨_, rfl, fun hkept => ?_⟩
  rcases hkept [_] _ [] rfl with ⟨_, hbelow⟩
  refine hbelow fastRank [coordinator] ⟨2, 5⟩ rfl ⟨_, List.mem_singleton_self _, _, rfl, rfl, ?_⟩ ?_
  · decide
  · decide

end Sample

end Rapid
