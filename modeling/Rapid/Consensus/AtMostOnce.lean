import Rapid.Consensus.Instance
import Rapid.Xxh64Reference

/-!
# AtMostOnce — how often one instance decides

There are two ways to a decision, and each has its own flag: a fast quorum sets the flag of
the instance, a classic majority sets the flag of the machine inside, which is then copied to the
instance. The copy goes one way only: after a fast decision the machine inside still counts
`Phase2bMessage`s, and a majority of them makes the instance decide again.

`LateMajority` is that call. The history of an instance has at most one decision, and none after
the flag is set, exactly if the call does not occur in it.
-/

namespace Rapid

open Foundations

section

variable [Xxh64]

/-! ## Decisions in a history -/

def decisions (history : List CallRecord) : List (List Endpoint) :=
  (emissions history).filterMap Emission.decision?

structure DecidesAtMostOnce (history : List CallRecord) : Prop where
  once : (decisions history).length ≤ 1
  closed : ∀ e ∈ history, e.before.decided = true → ∀ v, .decision v ∉ e.emitted

/-- A vote that is counted and gives its rank a majority. -/
def CompletesMajority (p : Paxos) (m : Phase2bMessage) : Prop :=
  m.configurationId = p.configurationId ∧ p.decided = false ∧
    ∃ rnd sender, m.rnd = some rnd ∧ m.sender = some sender ∧
      p.n / 2 < (p.bucketAfter rnd sender m).keys.card

/-- A decided instance receives the vote that completes a classic majority. -/
def LateMajority (p : FastPaxos) (c : InstanceCall) : Prop :=
  p.decided = true ∧ ∃ m, c = .inr ⟨some (.phase2bMessage m)⟩ ∧ CompletesMajority p.paxos m

omit [Xxh64] in
theorem mem_filterMap_decision? {outs : List PaxosOutgoing} {v : List Endpoint} :
    v ∈ outs.filterMap Emission.decision? ↔ .decision v ∈ outs := by
  rw [List.mem_filterMap]
  constructor
  · rintro ⟨out, hout, hv⟩
    cases out with
    | decision w =>
        cases hv
        exact hout
    | _ => cases hv
  · intro hout
    exact ⟨_, hout, rfl⟩

omit [Xxh64] in
theorem decisions_append (history : List CallRecord) (e : CallRecord) :
    decisions (history ++ [e]) = decisions history ++ e.emitted.filterMap Emission.decision? := by
  simp [decisions]

/-! ## Which calls decide -/

section Calls

variable {p : FastPaxos} {c : InstanceCall} {v : List Endpoint}

omit [Xxh64] in
theorem handlePhase2b_of_completes {q : Paxos} {m : Phase2bMessage} (h : CompletesMajority q m) :
    (q.handlePhase2b m).2 = [.decision m.endpoints] := by
  rcases h with ⟨hconfig, hopen, rnd, sender, hrnd, hsender, hquorum⟩
  unfold Paxos.handlePhase2b
  rw [if_neg (by simp [hconfig, hopen]), hrnd, hsender]
  exact congrArg Prod.snd (if_pos hquorum)

omit [Xxh64] in
theorem completes_of_handlePhase2b {q : Paxos} {m : Phase2bMessage}
    (h : .decision v ∈ (q.handlePhase2b m).2) : CompletesMajority q m := by
  unfold Paxos.handlePhase2b at h
  split at h
  · cases h
  · rename_i hguard
    rcases not_or.1 hguard with ⟨hconfig, hopen⟩
    split at h
    · rename_i rnd sender hrnd hsender
      dsimp only at h
      split at h
      · rename_i hquorum
        exact ⟨not_not.1 hconfig, by simpa using hopen, rnd, sender, hrnd, hsender, hquorum⟩
      · cases h
    · cases h

/-- A classic call decides only through `handle_phase2b`. -/
theorem decides_of_move {q q' : Paxos} {input : PaxosCommand ⊕ RapidRequest}
    {outs : List PaxosOutgoing} (hmove : Paxos.Move q input q' outs) (h : .decision v ∈ outs) :
    (∃ m, input = .inr ⟨some (.phase2bMessage m)⟩) ∧ q'.decided = true ∧ outs = [.decision v] := by
  cases hmove with
  | decide m =>
      cases List.mem_singleton.1 h
      exact ⟨⟨m, rfl⟩, rfl, rfl⟩
  | _ => simp at h

/-- A call that decides is made before any decision or is a late majority; it decides once and sets
the flag. -/
theorem emits_decides (h : .decision v ∈ p.emits c) :
    (p.decided = false ∨ LateMajority p c) ∧ (p.afterCall c).decided = true ∧
      p.emits c = [.decision v] := by
  have hmove := p.call_move c
  generalize hnew : p.emits c = new at hmove h ⊢
  generalize p.afterCall c = p' at hmove ⊢
  cases hmove with
  | idle => cases h
  | propose => simp at h
  | startClassic =>
      rcases decides_of_move (Paxos.startPhase1a_move _) h with ⟨⟨m, hm⟩, _⟩
      cases hm
  | classic request =>
      rcases decides_of_move (Paxos.receive_move _ request) h with ⟨⟨m, hm⟩, hdecided, houts⟩
      cases hm
      refine ⟨?_, by simp [hdecided], houts⟩
      cases hopen : p.decided with
      | false => exact Or.inl rfl
      | true => exact Or.inr ⟨hopen, m, rfl, completes_of_handlePhase2b h⟩
  | count => cases h
  | decide m =>
      cases List.mem_singleton.1 h
      refine ⟨Or.inl ?_, rfl, rfl⟩
      -- A decided instance would have emitted nothing.
      by_contra hclosed
      have hempty : p.emits (.inr ⟨some (.fastRoundPhase2bMessage m)⟩) = [] := by
        show ((p.handleFastRoundProposal m).2.filterMap FastOutgoing.emission?) = []
        rw [p.handleFastRoundProposal_of_decided (by simpa using hclosed)]
        rfl
      rw [hempty] at hnew
      cases hnew

theorem emits_of_lateMajority (h : LateMajority p c) : ∃ v, .decision v ∈ p.emits c := by
  rcases h with ⟨_, m, rfl, hcompletes⟩
  refine ⟨m.endpoints, ?_⟩
  show _ ∈ ((p.paxos.handlePhase2b m).2.map wrap).filterMap FastOutgoing.emission?
  rw [FastPaxos.filterMap_emission?_map_wrap, handlePhase2b_of_completes hcompletes]
  exact List.mem_singleton_self _

theorem decided_afterCall (h : p.decided = true) : (p.afterCall c).decided = true := by
  have hmove := p.call_move c
  generalize p.emits c = new at hmove
  generalize p.afterCall c = p' at hmove ⊢
  cases hmove with
  | classic => simp [h]
  | decide => rfl
  | _ => exact h

/-- A call decides nothing or one list. -/
theorem decisions_of_call :
    (p.emits c).filterMap Emission.decision? = [] ∨
      ∃ v, .decision v ∈ p.emits c ∧ (p.emits c).filterMap Emission.decision? = [v] := by
  rcases List.eq_nil_or_concat' ((p.emits c).filterMap Emission.decision?) with hnone | ⟨l, v, hsome⟩
  · exact Or.inl hnone
  · have hmem : v ∈ (p.emits c).filterMap Emission.decision? := by
      rw [hsome]
      exact List.mem_append_right _ (List.mem_singleton_self v)
    have hdecides : .decision v ∈ p.emits c := mem_filterMap_decision?.1 hmem
    refine Or.inr ⟨v, hdecides, ?_⟩
    rw [(emits_decides hdecides).2.2]
    rfl

end Calls

/-! ## Runs -/

section Runs

variable {addr : Endpoint} {configurationId : Int64} {membershipSize : Nat} {delay : Duration}
  {r : InstanceRun}

/-- The history records the calls as they are; nothing was decided while the flag is not set. -/
structure Recorded (r : InstanceRun) : Prop where
  emits : ∀ e ∈ r.history, e.emitted = e.before.emits e.call
  flag : r.self.decided = false → decisions r.history = []

theorem Recorded.reaches
    (h : (instanceSystem addr configurationId membershipSize delay).Reachable r) : Recorded r := by
  refine h.invariant ?_ ?_
  · rintro r rfl
    exact ⟨fun e he => (List.not_mem_nil he).elim, fun _ => rfl⟩
  · intro r c r' _ hI _ hstep
    cases hstep
    refine ⟨fun e he => ?_, fun hopen => ?_⟩
    · rcases List.mem_append.1 he with hold | hnew
      · exact hI.emits e hold
      · cases List.mem_singleton.1 hnew
        rfl
    · -- The flag was not set before the call either, and the call did not decide.
      have hbefore : r.self.decided = false := by
        by_contra hset
        have hafter := decided_afterCall (c := c) (by simpa using hset)
        simp [hafter] at hopen
      rw [decisions_append, hI.flag hbefore, List.nil_append]
      rcases decisions_of_call (p := r.self) (c := c) with hnone | ⟨v, hv, _⟩
      · exact hnone
      · simp [(emits_decides hv).2.1] at hopen

/-- Without a late majority a call after the decision decides nothing. -/
theorem Recorded.once
    (h : (instanceSystem addr configurationId membershipSize delay).Reachable r)
    (hlate : ∀ e ∈ r.history, ¬ LateMajority e.before e.call) : (decisions r.history).length ≤ 1 := by
  refine h.invariant
    (I := fun r => (∀ e ∈ r.history, ¬ LateMajority e.before e.call) → (decisions r.history).length ≤ 1)
    ?_ ?_ hlate
  · rintro r rfl _
    exact Nat.zero_le 1
  · intro r c r' hreach hI _ hstep hlate
    cases hstep
    have hold : (decisions r.history).length ≤ 1 :=
      hI fun e he => hlate e (List.mem_append_left _ he)
    have hnotLate : ¬ LateMajority r.self c :=
      hlate ⟨r.self, c, r.self.emits c⟩ (List.mem_append_right _ (List.mem_singleton_self _))
    rw [decisions_append]
    rcases decisions_of_call (p := r.self) (c := c) with hnone | ⟨v, hv, hone⟩
    · simpa [hnone] using hold
    · have hopen : r.self.decided = false := (emits_decides hv).1.resolve_right hnotLate
      rw [(Recorded.reaches hreach).flag hopen, hone]
      exact le_refl 1

/-- At most one decision, exactly if no majority of classic votes comes after the decision. -/
theorem decidesAtMostOnce_iff
    (h : (instanceSystem addr configurationId membershipSize delay).Reachable r) :
    DecidesAtMostOnce r.history ↔ ∀ e ∈ r.history, ¬ LateMajority e.before e.call := by
  have hemits := (Recorded.reaches h).emits
  constructor
  · intro hone e he hlate
    rcases emits_of_lateMajority hlate with ⟨v, hv⟩
    rw [← hemits e he] at hv
    exact hone.closed e he hlate.1 v hv
  · intro hlate
    refine ⟨Recorded.once h hlate, fun e he hdecided v hv => ?_⟩
    rw [hemits e he] at hv
    rcases (emits_decides hv).1 with hopen | hmajority
    · simp [hdecided] at hopen
    · exact hlate e he hmajority

end Runs

end

/-! ## The only member of a configuration

It votes for its own proposal, decides with this one vote, and decides again when a classic vote of
its own arrives late. -/

section Sample

attribute [local instance] xxh64Reference

def loner : Endpoint := ⟨[97], 1⟩

def lonerSystem : System InstanceRun InstanceCall :=
  instanceSystem loner 7 1 0

def lonerStart : InstanceRun :=
  ⟨FastPaxos.new loner 7 1 0, []⟩

def lonerFastVote : RapidRequest :=
  ⟨some (.fastRoundPhase2bMessage
    { configurationId := 7, endpoints := [loner], sender := some loner })⟩

def lonerClassicVote : RapidRequest :=
  ⟨some (.phase2bMessage
    { configurationId := 7, rnd := some ⟨2, 5⟩, sender := some loner, endpoints := [loner] })⟩

def fastThenClassic : List InstanceCall :=
  [.inl (.propose 0 [loner]), .inr lonerFastVote, .inr lonerClassicVote]

def classicThenFast : List InstanceCall :=
  [.inl (.propose 0 [loner]), .inr lonerClassicVote, .inr lonerFastVote]

theorem fastThenClassic_decides_twice :
    ∃ r, lonerSystem.exec lonerStart fastThenClassic = some r ∧ ¬ DecidesAtMostOnce r.history := by
  have hdecisions : (lonerSystem.exec lonerStart fastThenClassic).map
      (fun r => decisions r.history) = some [[loner], [loner]] := by
    decide +kernel
  rcases Option.map_eq_some_iff.1 hdecisions with ⟨r, hrun, htwo⟩
  refine ⟨r, hrun, fun hone => ?_⟩
  have hlength := hone.once
  rw [htwo] at hlength
  exact absurd hlength (by decide)

/-- The other order is fine: a classic decision closes both ways. -/
theorem classicThenFast_decides_once :
    ∃ r, lonerSystem.exec lonerStart classicThenFast = some r ∧ DecidesAtMostOnce r.history := by
  have hreach : lonerSystem.Reachable lonerStart := .start rfl
  have hrun : lonerSystem.exec lonerStart classicThenFast = some _ := rfl
  refine ⟨_, hrun, (decidesAtMostOnce_iff (hreach.exec hrun)).2 ?_⟩
  intro e he hlate
  rcases List.mem_append.1 he with he | he
  · rcases List.mem_append.1 he with he | he
    · cases List.mem_singleton.1 he
      rcases hlate.2 with ⟨m, hm, _⟩
      cases hm
    · -- The classic vote comes while nothing is decided.
      cases List.mem_singleton.1 he
      exact absurd hlate.1 (by decide)
  · cases List.mem_singleton.1 he
    rcases hlate.2 with ⟨m, hm, _⟩
    cases hm

end Sample

end Rapid
