import Rapid.Consensus.ClassicAgreement
import Rapid.Consensus.FastNetwork

/-!
# FastAgreement — when the fast and the classic path agree

`propose` broadcasts a fast vote and asks the inner machine to remember it. The machine refuses when
it has already joined a classic round, but the vote is broadcast all the same. As long as this does
not happen, promises report the fast votes of their senders (`Reports`), a value with a fast quorum
is the only one the coordinator rule can pick, and all decisions of a run agree.
-/

namespace Rapid

open Foundations

section Reporting

variable [Xxh64] {N : Nat}

/-- Every propose happens at an instance that has not joined a classic round. -/
def ProposesInFastRound (w : FastWorld N) (a : NetAction N RapidRequest FastCommand) : Prop :=
  match a with
  | .command i (.propose _ _) => ¬ (w.nodes i).paxos.rnd.round > 1
  | _ => True

instance (w : FastWorld N) (a : NetAction N RapidRequest FastCommand) :
    Decidable (ProposesInFastRound w a) :=
  match a with
  | .command i (.propose _ _) => inferInstanceAs (Decidable (¬ (w.nodes i).paxos.rnd.round > 1))
  | .command _ .startClassicRound => .isTrue trivial
  | .deliver _ _ => .isTrue trivial
  | .lose _ _ => .isTrue trivial

/-! ## Promises report fast votes -/

/-- A report of vote `vval` at `vrnd` that accounts for a fast vote for `v`. -/
def Accounts (vrnd : Rank) (vval v : List Endpoint) : Prop :=
  fastRank ≤ vrnd ∧ (vrnd = fastRank → vval = v)

/-- A machine and all its promises account for its fast vote. -/
structure Reports (addr : Fin N → Endpoint) (w : FastWorld N) : Prop where
  node : ∀ a v, FastVoted addr w.sent a v →
    Accounts (w.nodes a).paxos.vrnd (w.nodes a).paxos.vval v
  promise : ∀ m : Phase1bMessage, ⟨some (.phase1bMessage m)⟩ ∈ w.sent →
    ∀ a v, m.sender = some (addr a) → FastVoted addr w.sent a v →
      ∀ vr, m.vrnd = some vr → Accounts vr m.vval v

/-- Apart from registering a fast vote, a machine keeps its vote or casts a classic one, and its
promises report its vote. -/
theorem report_of_move {p p' : Paxos} {input : PaxosCommand ⊕ RapidRequest}
    {outs : List PaxosOutgoing} (hmove : Paxos.Move p input p' outs)
    (hinput : ∀ v, input ≠ .inl (.registerFastRoundVote v))
    (hclassic : ∀ m r, input = .inr ⟨some (.phase2aMessage m)⟩ → m.rnd = some r → fastRank < r) :
    (p'.vrnd = p.vrnd ∧ p'.vval = p.vval ∨ fastRank < p'.vrnd) ∧
      ∀ e ∈ outs, ∀ m : Phase1bMessage, e.message? = some ⟨some (.phase1bMessage m)⟩ →
        m.sender = some p.myAddr ∧ m.vrnd = some p.vrnd ∧ m.vval = p.vval := by
  have hnone : ∀ e ∈ ([] : List PaxosOutgoing), ∀ m : Phase1bMessage,
      e.message? = some ⟨some (.phase1bMessage m)⟩ →
        m.sender = some p.myAddr ∧ m.vrnd = some p.vrnd ∧ m.vval = p.vval :=
    fun e he => (by cases he)
  -- An output that is no promise reports nothing.
  have hother : ∀ out : PaxosOutgoing, (∀ m, out.message? ≠ some ⟨some (.phase1bMessage m)⟩) →
      ∀ e ∈ [out], ∀ m : Phase1bMessage, e.message? = some ⟨some (.phase1bMessage m)⟩ →
        m.sender = some p.myAddr ∧ m.vrnd = some p.vrnd ∧ m.vval = p.vval := by
    intro out hout e he m hm
    cases List.mem_singleton.1 he
    exact absurd hm (hout m)
  cases hmove with
  | idle => exact ⟨.inl ⟨rfl, rfl⟩, hnone⟩
  | register vote => exact absurd rfl (hinput vote)
  | promiseSilent => exact ⟨.inl ⟨rfl, rfl⟩, hnone⟩
  | collect => exact ⟨.inl ⟨rfl, rfl⟩, hnone⟩
  | learn => exact ⟨.inl ⟨rfl, rfl⟩, hnone⟩
  | prepare => exact ⟨.inl ⟨rfl, rfl⟩, hother _ fun _ hm => by cases hm⟩
  | promise m rank sender =>
      refine ⟨.inl ⟨rfl, rfl⟩, ?_⟩
      intro e he m' hm'
      cases List.mem_singleton.1 he
      cases hm'
      exact ⟨rfl, rfl, rfl⟩
  | propose => exact ⟨.inl ⟨rfl, rfl⟩, hother _ fun _ hm => by cases hm⟩
  | accept m rnd hrnd =>
      exact ⟨.inr (hclassic m rnd rfl hrnd), hother _ fun _ hm => by cases hm⟩
  | decide => exact ⟨.inl ⟨rfl, rfl⟩, hother _ fun _ hm => by cases hm⟩

omit [Xxh64] in
theorem Accounts.of_report {p p' : Paxos} {v : List Endpoint} (h : Accounts p.vrnd p.vval v)
    (hreport : p'.vrnd = p.vrnd ∧ p'.vval = p.vval ∨ fastRank < p'.vrnd) :
    Accounts p'.vrnd p'.vval v := by
  rcases hreport with ⟨hvrnd, hvval⟩ | hlt
  · rw [hvrnd, hvval]
    exact h
  · exact ⟨le_of_lt hlt, fun heq => absurd heq.symm (ne_of_lt hlt)⟩

variable {configurationId : Int64} {addr : Fin N → Endpoint} {delay : Fin N → Duration}
  {w : FastWorld N} {t : ClassicWorld N}

omit [Xxh64] in
/-- An acceptor casts one fast vote. -/
theorem FastInv.fastVoted_unique (hI : FastInv addr w) (hinj : Function.Injective addr) {a : Fin N}
    {v u : List Endpoint} (hv : FastVoted addr w.sent a v) (hu : FastVoted addr w.sent a u) :
    v = u := by
  have hissued : ∀ x, FastVoted addr w.sent a x →
      ∃ jitter, (a, FastCommand.propose jitter x) ∈ w.issued := by
    rintro x ⟨m, hm, hsender, rfl⟩
    rcases hI.votes m hm with ⟨i, jitter, hi, hmem⟩
    have haddr : addr i = addr a := Option.some.inj (hi.symm.trans hsender)
    exact ⟨jitter, hinj haddr ▸ hmem⟩
  rcases hissued v hv with ⟨jitter, hmem⟩
  rcases hissued u hu with ⟨jitter', hmem'⟩
  exact hI.once a jitter v jitter' u hmem hmem'

omit [Xxh64] in
theorem FastInv.fastVoted_ne_nil (hI : FastInv addr w) {a : Fin N} {v : List Endpoint}
    (hv : FastVoted addr w.sent a v) : v ≠ [] := by
  rcases hv with ⟨m, hm, _, rfl⟩
  rcases hI.votes m hm with ⟨i, jitter, _, hmem⟩
  exact hI.nonempty i jitter _ hmem

/-- A machine that has not joined a classic round has sent no promise. -/
theorem Refines.no_promise (hR : Refines addr w t) (hC : ClassicInv addr t)
    (hinj : Function.Injective addr) {i : Fin N} (hround : ¬ (w.nodes i).paxos.rnd.round > 1)
    {m : Phase1bMessage} (hm : ⟨some (.phase1bMessage m)⟩ ∈ w.sent) :
    m.sender ≠ some (addr i) := by
  intro hsender
  have hsent : ⟨some (.phase1bMessage m)⟩ ∈ t.sent := by
    rw [hR.sent]
    exact List.mem_filter.2 ⟨hm, rfl⟩
  rcases hC.wire _ hsent with ⟨a, r, vr, hprom⟩
  have hai : a = i := hinj (Option.some.inj (hprom.sender.symm.trans hsender))
  subst hai
  have hnode : t.nodes a = (w.nodes a).paxos := congrFun hR.nodes a
  have hlt : fastRank < (t.nodes a).rnd := lt_of_lt_of_le hprom.classic hprom.kept
  have hle : (t.nodes a).rnd ≤ fastRank :=
    (hC.node a).rounds.resolve_left (by rw [hnode]; exact hround)
  exact absurd hlt (not_lt.2 hle)

/-- The same for an instance: only a propose registers a fast vote. -/
theorem report_of_fastMove {p p' : FastPaxos} {input : FastCommand ⊕ RapidRequest}
    {outs : List PaxosOutgoing} (hmove : FastPaxos.Move p input p' outs)
    (hinput : ∀ jitter v, input ≠ .inl (.propose jitter v))
    (hclassic : ∀ m r, input = .inr ⟨some (.phase2aMessage m)⟩ → m.rnd = some r → fastRank < r) :
    (p'.paxos.vrnd = p.paxos.vrnd ∧ p'.paxos.vval = p.paxos.vval ∨ fastRank < p'.paxos.vrnd) ∧
      ∀ e ∈ outs, ∀ m : Phase1bMessage, e.message? = some ⟨some (.phase1bMessage m)⟩ →
        m.sender = some p.paxos.myAddr ∧ m.vrnd = some p.paxos.vrnd ∧ m.vval = p.paxos.vval := by
  cases hmove with
  | idle => exact ⟨.inl ⟨rfl, rfl⟩, fun e he => (by cases he)⟩
  | propose jitter proposal => exact absurd rfl (hinput jitter proposal)
  -- Both classic inputs are moves of the inner machine.
  | startClassic =>
      exact report_of_move p.paxos.startPhase1a_move (by rintro v ⟨⟩) (by rintro m r ⟨⟩)
  | classic m hm =>
      refine report_of_move (p.paxos.receive_move m) (by rintro v ⟨⟩) ?_
      rintro m' r ⟨⟩ hr
      exact hclassic m' r rfl hr
  | count => exact ⟨.inl ⟨rfl, rfl⟩, fun e he => (by cases he)⟩
  | decide =>
      refine ⟨.inl ⟨rfl, rfl⟩, ?_⟩
      intro e he m hm
      cases List.mem_singleton.1 he
      cases hm

/-- The invariant survives a reaction, if a propose happens in the fast round. -/
theorem Reports.react (h : Reports addr w) (hinj : Function.Injective addr)
    (hI : FastInv addr w) (hR : Refines addr w t) (hC : ClassicInv addr t) {i : Fin N}
    {input : FastCommand ⊕ RapidRequest} {r : FastPaxos × List PaxosOutgoing}
    (hmove : FastPaxos.Move (w.nodes i) input r.1 r.2) (hin : ∀ m, input = .inr m → m ∈ w.sent)
    (hI' : FastInv addr
      ((fastNetwork configurationId addr delay).post (Protocol.consume w i input) i r))
    (hguard : ∀ jitter v, input = .inl (.propose jitter v) → ¬ (w.nodes i).paxos.rnd.round > 1) :
    Reports addr
      ((fastNetwork configurationId addr delay).post (Protocol.consume w i input) i r) := by
  have hreacted := Protocol.reacted (fastNetwork configurationId addr delay) w i input r
  generalize (fastNetwork configurationId addr delay).post (Protocol.consume w i input) i r = w'
    at hI' hreacted ⊢
  have hmyAddr : (w.nodes i).paxos.myAddr = addr i := by
    have hnode : t.nodes i = (w.nodes i).paxos := congrFun hR.nodes i
    rw [← hnode]
    exact (hC.node i).myAddr
  -- A new fast vote is that of the propose in this step.
  have hvoted : ∀ a v, FastVoted addr w'.sent a v → FastVoted addr w.sent a v ∨
      a = i ∧ ∃ jitter, input = .inl (.propose jitter v) := by
    rintro a v ⟨m, hm, hsender, rfl⟩
    rcases (hreacted.sent _).1 hm with hold | ⟨e, he, hmsg⟩
    · exact .inl ⟨m, hold, hsender, rfl⟩
    · rcases fastVote_of_move hmove he hmsg with ⟨hme, hinput⟩
      have haddr : addr a = addr i := by
        rw [← hI.myAddr i]
        exact Option.some.inj (hsender.symm.trans hme)
      exact .inr ⟨hinj haddr, hinput⟩
  by_cases hpropose : ∃ jitter v, input = .inl (.propose jitter v)
  · rcases hpropose with ⟨jitter, v, rfl⟩
    have hround := hguard jitter v rfl
    obtain ⟨p', outs⟩ := r
    cases hmove with
    | idle _ hcommand => exact absurd rfl (hcommand jitter v)
    | propose =>
        have hregister : (w.nodes i).paxos.registerFastRoundVote v =
            { (w.nodes i).paxos with rnd := ⟨1, 1⟩, vrnd := ⟨1, 1⟩, vval := v } :=
          if_neg hround
        refine ⟨?_, ?_⟩
        · intro a u hu
          by_cases hai : a = i
          · subst hai
            -- The vote cast in this step is the only one of the machine.
            have hv : FastVoted addr w'.sent a v :=
              ⟨fastMessage (w.nodes a) v, (hreacted.sent _).2 (.inr ⟨_, List.mem_singleton_self _, rfl⟩),
                congrArg some (hI.myAddr a), rfl⟩
            have huv : v = u := hI'.fastVoted_unique hinj hv hu
            rw [hreacted.own]
            dsimp only
            rw [hregister]
            exact ⟨le_refl _, fun _ => huv⟩
          · rw [hreacted.others a hai]
            exact h.node a u ((hvoted a u hu).resolve_right fun hi => hai hi.1)
        · intro m hm a u hsender hu vr hvr
          have hold : ⟨some (.phase1bMessage m)⟩ ∈ w.sent := by
            rcases (hreacted.sent _).1 hm with hold | ⟨e, he, hmsg⟩
            · exact hold
            · cases List.mem_singleton.1 he
              cases hmsg
          by_cases hai : a = i
          · subst hai
            exact absurd hsender (hR.no_promise hC hinj hround hold)
          · exact h.promise m hold a u hsender
              ((hvoted a u hu).resolve_right fun hi => hai hi.1) vr hvr
  · -- No fast vote is cast in this step.
    have hinput : ∀ jitter v, input ≠ .inl (.propose jitter v) :=
      fun jitter v heq => hpropose ⟨jitter, v, heq⟩
    have hclassic : ∀ m k, input = .inr ⟨some (.phase2aMessage m)⟩ → m.rnd = some k →
        fastRank < k := by
      intro m k hm hk
      have hsent : ⟨some (.phase2aMessage m)⟩ ∈ t.sent := by
        rw [hR.sent]
        exact List.mem_filter.2 ⟨hin _ hm, rfl⟩
      exact fastRank_lt ((hC.wire _ hsent).one_lt_round_of_proposal hk)
    rcases report_of_fastMove hmove hinput hclassic with ⟨hvote, hreport⟩
    have hvoted' : ∀ a v, FastVoted addr w'.sent a v → FastVoted addr w.sent a v := by
      intro a v hv
      rcases hvoted a v hv with hold | ⟨_, jitter, heq⟩
      · exact hold
      · exact absurd heq (hinput jitter v)
    refine ⟨?_, ?_⟩
    · intro a v hv
      have hold := h.node a v (hvoted' a v hv)
      by_cases hai : a = i
      · subst hai
        rw [hreacted.own]
        exact hold.of_report hvote
      · rw [hreacted.others a hai]
        exact hold
    · intro m hm a v hsender hv vr hvr
      rcases (hreacted.sent _).1 hm with hold | ⟨e, he, hmsg⟩
      · exact h.promise m hold a v hsender (hvoted' a v hv) vr hvr
      · rcases hreport e he m hmsg with ⟨hme, hvrnd, hvval⟩
        -- The promise of this step reports the state before it.
        have hai : a = i := by
          apply hinj
          rw [← hmyAddr]
          exact Option.some.inj (hsender.symm.trans hme)
        have hvr' : (w.nodes i).paxos.vrnd = vr := Option.some.inj (hvrnd.symm.trans hvr)
        rw [← hvr', hvval, ← hai]
        exact h.node a v (hvoted' a v hv)

theorem Reports.reaches (hinj : Function.Injective addr)
    (hw : (fastNetwork configurationId addr delay).system.Reaches ProposesInFastRound w) :
    Reports addr w := by
  refine hw.invariant ?_ ?_
  · intro w hw
    rw [show w = (fastNetwork configurationId addr delay).initial from hw]
    refine ⟨?_, fun m hm => (by cases hm)⟩
    rintro a v ⟨m, hm, _⟩
    cases hm
  · intro w a w' hw h hok hstep
    rcases Refines.reaches hw with ⟨t, ht, hR⟩
    have hw' := FastInv.reaches (System.Reaches.step hw hok hstep)
    rcases Protocol.step_cases hstep with ⟨i, input, rfl, havail, rfl⟩ | ⟨j, m, _, hin, rfl⟩
    · refine h.react hinj (.reaches hw) hR (.reaches hinj ht)
        (fast_react_move configurationId addr delay i input) ?_ hw' ?_
      · rintro m rfl
        exact Protocol.inflight_sent hw _ havail
      · rintro jitter v rfl
        exact hok
    · exact ⟨h.node, h.promise⟩

/-! ## The voting record with the fast round -/

open Classical in
/-- The fast votes at the fast rank, the classic votes above it. -/
noncomputable def fastRecord (addr : Fin N → Endpoint) (w : FastWorld N) (t : ClassicWorld N) :
    Voting.Record (Fin N) Rank (List Endpoint) where
  vote a r v := if r = fastRank then FastVoted addr w.sent a v else Voted addr t.sent a r v
  proposed := Proposed t.sent

omit [Xxh64] in
theorem mem_voters_fastRank {a : Fin N} {v : List Endpoint} :
    a ∈ (fastRecord addr w t).voters fastRank v ↔ FastVoted addr w.sent a v := by
  simp [fastRecord]

omit [Xxh64] in
theorem FastDecided.card_voters {v : List Endpoint} (h : FastDecided addr w.sent v) :
    N - FastPaxos.faults N ≤ ((fastRecord addr w t).voters fastRank v).card := by
  classical
  refine le_trans h (Finset.card_le_card ?_)
  intro a ha
  exact mem_voters_fastRank.2 (Finset.mem_filter.1 ha).2

/-- What a promise behind a proposal says of a fast vote of its sender. -/
theorem Reports.accounts (h : Reports addr w) (hR : Refines addr w t) (hC : ClassicInv addr t)
    {r k : Rank} {v : List Endpoint} {quorum : List Phase1bMessage}
    (hE : Evidence t.sent N quorum r v)
    (hk : (quorum.filterMap Phase1bMessage.vrnd).max? = some k) {a : Fin N}
    (ha : a ∈ sendersOf addr quorum) {u : List Endpoint} (hu : FastVoted addr w.sent a u) :
    ∃ m ∈ quorum, m.sender = some (addr a) ∧
      ∃ vr, m.vrnd = some vr ∧ vr ≤ k ∧ Accounts vr m.vval u := by
  rcases List.mem_map.1 (Finset.mem_filter.1 ha).2 with ⟨m, hm, hsender⟩
  rcases hC.promise_of_sent (hE.sent m hm) (hE.rank m hm) with ⟨a', vr, hprom⟩
  have hsent : ⟨some (.phase1bMessage m)⟩ ∈ w.sent := by
    have hmem := hE.sent m hm
    rw [hR.sent] at hmem
    exact (List.mem_filter.1 hmem).1
  refine ⟨m, hm, hsender, vr, hprom.vrnd, ?_, h.promise m hsent a u hsender hu vr hprom.vrnd⟩
  exact (List.max?_eq_some_iff.1 hk).2 vr (List.mem_filterMap.2 ⟨m, hm, hprom.vrnd⟩)

/-- The promises behind a proposal support it in the record with the fast votes. -/
theorem Reports.support (h : Reports addr w) (hR : Refines addr w t) (hC : ClassicInv addr t)
    (hindex : Function.Injective fun i => stableNodeIndex (addr i)) {r k : Rank}
    {v : List Endpoint} {quorum : List Phase1bMessage} (hE : Evidence t.sent N quorum r v)
    (hk : (quorum.filterMap Phase1bMessage.vrnd).max? = some k) :
    Voting.Support (fastRecord addr w t) fastRank (sendersOf addr quorum) k r v := by
  refine (hC.support hindex hE hk).extend (fun u hu => hu) ?_
  intro a ha k' u hvote
  by_cases hfast : k' = fastRank
  · have hu : FastVoted addr w.sent a u := by
      simpa [fastRecord, hfast] using hvote
    rcases h.accounts hR hC hE hk ha hu with ⟨m, _, _, vr, _, hle, hacc⟩
    exact .inr (hfast ▸ le_trans hacc.1 hle)
  · have hu : Voted addr t.sent a k' u := by
      simpa [fastRecord, hfast] using hvote
    exact .inl hu

/-- Every fast vote for `u` inside the quorum is collected by the coordinator rule. -/
theorem Reports.card_voters_le (h : Reports addr w) (hI : FastInv addr w) (hR : Refines addr w t)
    (hC : ClassicInv addr t) (hinj : Function.Injective addr) {r k : Rank} {v u : List Endpoint}
    {quorum : List Phase1bMessage} (hE : Evidence t.sent N quorum r v)
    (hk : (quorum.filterMap Phase1bMessage.vrnd).max? = some k) (hfast : k ≤ fastRank) :
    ((fastRecord addr w t).voters fastRank u ∩ sendersOf addr quorum).card ≤
      (Paxos.collectedValues quorum k).count u := by
  -- Each of the voters reports its vote to the coordinator.
  have hreport : ∀ a ∈ (fastRecord addr w t).voters fastRank u ∩ sendersOf addr quorum,
      u ≠ [] ∧ ∃ m ∈ quorum, m.sender = some (addr a) ∧ m.vrnd = some k ∧ m.vval = u := by
    intro a ha
    rcases Finset.mem_inter.1 ha with ⟨hvoter, hsender⟩
    have hu := mem_voters_fastRank.1 hvoter
    rcases h.accounts hR hC hE hk hsender hu with ⟨m, hm, hs, vr, hvr, hle, hacc⟩
    have hvk : vr = k := le_antisymm hle (le_trans hfast hacc.1)
    subst hvk
    exact ⟨hI.fastVoted_ne_nil hu, m, hm, hs, hvr, hacc.2 (le_antisymm hfast hacc.1)⟩
  by_cases hempty : (fastRecord addr w t).voters fastRank u ∩ sendersOf addr quorum = ∅
  · rw [hempty]
    exact Nat.zero_le _
  · rcases Finset.nonempty_iff_ne_empty.2 hempty with ⟨a₀, ha₀⟩
    have hsubset : ((fastRecord addr w t).voters fastRank u ∩ sendersOf addr quorum).image
        (fun a => some (addr a)) ⊆
          ((quorum.filter fun m => m.vrnd = some k ∧ m.vval = u).map
            Phase1bMessage.sender).toFinset := by
      intro s hs
      rcases Finset.mem_image.1 hs with ⟨a, ha, rfl⟩
      rcases (hreport a ha).2 with ⟨m, hm, hsender, hvrnd, hvval⟩
      refine List.mem_toFinset.2 (List.mem_map.2 ⟨m, ?_, hsender⟩)
      exact List.mem_filter.2 ⟨hm, by simp [hvrnd, hvval]⟩
    have hinj' : Function.Injective fun a => some (addr a) :=
      fun a b hab => hinj (Option.some.inj hab)
    calc
      ((fastRecord addr w t).voters fastRank u ∩ sendersOf addr quorum).card =
          (((fastRecord addr w t).voters fastRank u ∩ sendersOf addr quorum).image
            fun a => some (addr a)).card := (Finset.card_image_of_injective _ hinj').symm
      _ ≤ _ := Finset.card_le_card hsubset
      _ ≤ _ := List.toFinset_card_le _
      _ = (Paxos.collectedValues quorum k).count u := by
        rw [List.length_map, Paxos.count_collectedValues (hreport a₀ ha₀).1]

/-- When the highest report is not classic, no value but the proposed one can still gather a fast
quorum: the rule would have picked it. -/
theorem Reports.free (h : Reports addr w) (hI : FastInv addr w) (hR : Refines addr w t)
    (hC : ClassicInv addr t) (hinj : Function.Injective addr) {r k : Rank} {v : List Endpoint}
    {quorum : List Phase1bMessage} (hE : Evidence t.sent N quorum r v)
    (hk : (quorum.filterMap Phase1bMessage.vrnd).max? = some k) (hfast : k ≤ fastRank) :
    Voting.Free (fastRecord addr w t) fastRank (N - FastPaxos.faults N) (sendersOf addr quorum)
      v := by
  intro u huv
  by_contra hge
  have hcollected := h.card_voters_le hI hR hC hinj (u := u) hE hk hfast
  have hquorum := hC.card_sendersOf hE
  have hrest : (Finset.univ \ sendersOf addr quorum).card = N - (sendersOf addr quorum).card := by
    rw [← Finset.compl_eq_univ_sdiff, Finset.card_compl, Fintype.card_fin]
  have hcard : (sendersOf addr quorum).card ≤ N := by
    simpa using Finset.card_le_univ (sendersOf addr quorum)
  have hlarge : N / 2 < quorum.length := hE.large
  -- At least `quorum.length - faults N` of the promises carry `u`.
  have hmany : quorum.length ≤ (Paxos.collectedValues quorum k).count u + FastPaxos.faults N := by
    omega
  have hfaults : FastPaxos.faults N ≤ N / 4 := by
    unfold FastPaxos.faults
    omega
  have hmore : N / 4 < (Paxos.collectedValues quorum k).count u := by
    unfold FastPaxos.faults at hmany
    omega
  have hrule : Paxos.selectProposalFromMessages quorum N = u :=
    Paxos.selectProposal_of_dominant hk hmore (by omega)
  exact huv (hrule.symm.trans hE.rule)

/-- A fast decision is the only value ever proposed in the classic rounds. -/
theorem Reports.proposed_eq (h : Reports addr w) (hI : FastInv addr w) (hR : Refines addr w t)
    (hC : ClassicInv addr t) (hindex : Function.Injective fun i => stableNodeIndex (addr i))
    {v u : List Endpoint} {r : Rank} (hu : FastDecided addr w.sent u)
    (hv : Proposed t.sent r v) : v = u := by
  have hinj : Function.Injective addr := fun i j hij => hindex (congrArg stableNodeIndex hij)
  have hsupported : ∀ r v, (fastRecord addr w t).proposed r v →
      ∃ Q k, Voting.Support (fastRecord addr w t) fastRank Q k r v ∧
        (k ≤ fastRank →
          Voting.Free (fastRecord addr w t) fastRank (N - FastPaxos.faults N) Q v) := by
    intro r v hv
    rcases hC.evidence hv with ⟨quorum, hE⟩
    rcases hC.exists_max hE with ⟨k, hk⟩
    exact ⟨_, k, h.support hR hC hindex hE hk, fun hfast => h.free hI hR hC hinj hE hk hfast⟩
  exact Voting.proposed_of_fast_quorum hsupported hu.card_voters r v hv

/-- A classic decision falls on the value of a fast one. -/
theorem Reports.decided_eq (h : Reports addr w) (hI : FastInv addr w) (hR : Refines addr w t)
    (hC : ClassicInv addr t) (hindex : Function.Injective fun i => stableNodeIndex (addr i))
    {u : List Endpoint} (hu : FastDecided addr w.sent u) {d : Fin N × List Endpoint}
    (hd : d ∈ t.decisions) : d.2 = u := by
  rcases hC.chosen hindex (hC.decided d hd) with ⟨r, _, hproposed, _⟩
  exact h.proposed_eq hI hR hC hindex hu hproposed

omit [Xxh64] in
/-- Two fast quorums share an acceptor, which votes once. -/
theorem FastInv.fastDecided_unique (hI : FastInv addr w) (hinj : Function.Injective addr) (hN : 0 < N)
    {u v : List Endpoint} (hu : FastDecided addr w.sent u) (hv : FastDecided addr w.sent v) :
    u = v := by
  classical
  unfold FastDecided FastPaxos.faults at hu hv
  have hsize : Fintype.card (Fin N) <
      (Finset.univ.filter fun a => FastVoted addr w.sent a u).card +
        (Finset.univ.filter fun a => FastVoted addr w.sent a v).card := by
    rw [Fintype.card_fin]
    omega
  obtain ⟨a, hau, hav⟩ := Voting.exists_mem_of_card_lt hsize
  exact hI.fastVoted_unique hinj (Finset.mem_filter.1 hau).2 (Finset.mem_filter.1 hav).2

end Reporting

/-! ## Agreement -/

section Agreement

variable [Xxh64] {N : Nat}

/-- All decisions of a run agree, fast or classic, when every propose happens in the fast round. -/
theorem fastPaxos_agree (configurationId : Int64) (addr : Fin N → Endpoint)
    (delay : Fin N → Duration) (hindex : Function.Injective fun i => stableNodeIndex (addr i))
    {w : FastWorld N}
    (hw : (fastNetwork configurationId addr delay).system.Reaches ProposesInFastRound w) :
    ∀ d ∈ w.decisions, ∀ d' ∈ w.decisions, d.2 = d'.2 := by
  have hinj : Function.Injective addr := fun i j hij => hindex (congrArg stableNodeIndex hij)
  have hI : FastInv addr w := .reaches hw
  have h : Reports addr w := .reaches hinj hw
  rcases Refines.reaches hw with ⟨t, ht, hR⟩
  have hC : ClassicInv addr t := .reaches hinj ht
  -- A classic decision falls on the value that the fast round has chosen.
  have hmixed : ∀ {u : List Endpoint}, FastDecided addr w.sent u → ∀ d ∈ t.decisions, d.2 = u := by
    intro u hu d hd
    rcases hC.chosen hindex (hC.decided d hd) with ⟨r, _, hprop, _⟩
    exact h.proposed_eq hI hR hC hindex hu hprop
  intro d hd d' hd'
  rcases hR.decided d hd with hclassic | hfast
  · rcases hR.decided d' hd' with hclassic' | hfast'
    · exact hC.decided_agree hindex (hC.decided d hclassic) (hC.decided d' hclassic')
    · exact hmixed hfast' d hclassic
  · rcases hR.decided d' hd' with hclassic' | hfast'
    · exact (hmixed hfast d' hclassic').symm
    · -- Two fast quorums share a member, which votes once.
      have hpos : 0 < N := Fin.pos d.1
      have hsize : Fintype.card (Fin N) < 2 * (N - FastPaxos.faults N) := by
        rw [Fintype.card_fin, FastPaxos.faults]
        omega
      have honce : ∀ a v u, (fastRecord addr w t).vote a fastRank v →
          (fastRecord addr w t).vote a fastRank u → v = u := by
        intro a v u hv hu
        exact hI.fastVoted_unique hinj
          (mem_voters_fastRank.1 ((Voting.Record.mem_voters _).2 hv))
          (mem_voters_fastRank.1 ((Voting.Record.mem_voters _).2 hu))
      exact Voting.fast_agree hsize honce hfast.card_voters hfast'.card_voters

end Agreement

/-! ### Two runs of five instances

In the first run four instances propose the same list in time, and the classic round picks it up. In
the second, two instances propose after they have promised: their votes count for a fast decision
that the classic round never saw. -/

section Runs

attribute [local instance] xxh64Reference

def fiveAddr : Fin 5 → Endpoint :=
  fun i => ⟨[97], Int32.ofNat i⟩

def fiveDelay : Fin 5 → Duration :=
  fun _ => 0

def early : List Endpoint :=
  [⟨[98], 1⟩]

def late : List Endpoint :=
  [⟨[98], 2⟩]

section Messages

variable (coordinator : Fin 5)

def fiveFast (a : Fin 5) (v : List Endpoint) : RapidRequest :=
  ⟨some (.fastRoundPhase2bMessage ⟨some (fiveAddr a), 7, v⟩)⟩

def fivePrepare : RapidRequest :=
  ⟨some (.phase1aMessage
    ⟨some (fiveAddr coordinator), 7, some (Paxos.coordinatorRank (fiveAddr coordinator))⟩)⟩

def fivePromise (a : Fin 5) (vrnd : Rank) (v : List Endpoint) : RapidRequest :=
  ⟨some (.phase1bMessage
    ⟨some (fiveAddr a), 7, some (Paxos.coordinatorRank (fiveAddr coordinator)), some vrnd, v⟩)⟩

def fiveProposal (v : List Endpoint) : RapidRequest :=
  ⟨some (.phase2aMessage
    ⟨some (fiveAddr coordinator), 7, some (Paxos.coordinatorRank (fiveAddr coordinator)), v⟩)⟩

def fiveVote (a : Fin 5) (v : List Endpoint) : RapidRequest :=
  ⟨some (.phase2bMessage
    ⟨some (fiveAddr a), 7, some (Paxos.coordinatorRank (fiveAddr coordinator)), v⟩)⟩

end Messages

def timelyRun : List (NetAction 5 RapidRequest FastCommand) :=
  [.command 0 (.propose 0 early), .command 1 (.propose 0 early), .command 2 (.propose 0 early),
    .command 3 (.propose 0 early), .command 4 (.propose 0 late), .command 4 .startClassicRound,
    .deliver 4 (fivePrepare 4), .deliver 0 (fivePrepare 4), .deliver 1 (fivePrepare 4),
    .deliver 4 (fivePromise 4 4 fastRank late), .deliver 4 (fivePromise 4 0 fastRank early),
    .deliver 4 (fivePromise 4 1 fastRank early),
    .deliver 2 (fiveProposal 4 early), .deliver 3 (fiveProposal 4 early),
    .deliver 4 (fiveProposal 4 early),
    .deliver 4 (fiveVote 4 2 early), .deliver 4 (fiveVote 4 3 early), .deliver 4 (fiveVote 4 4 early),
    .deliver 0 (fiveFast 0 early), .deliver 0 (fiveFast 1 early), .deliver 0 (fiveFast 2 early),
    .deliver 0 (fiveFast 3 early)]

theorem timelyRun_decisions :
    ((fastNetwork 7 fiveAddr fiveDelay).system.execWhile ProposesInFastRound
      (fastNetwork 7 fiveAddr fiveDelay).initial timelyRun).map World.decisions =
        some [(4, early), (0, early)] := by
  decide +kernel

theorem timelyRun_agree :
    ∃ w, (fastNetwork 7 fiveAddr fiveDelay).system.execWhile ProposesInFastRound
        (fastNetwork 7 fiveAddr fiveDelay).initial timelyRun = some w ∧
      w.decisions = [(4, early), (0, early)] ∧ ∀ d ∈ w.decisions, ∀ d' ∈ w.decisions, d.2 = d'.2 := by
  rcases Option.map_eq_some_iff.1 timelyRun_decisions with ⟨w, hrun, hdecisions⟩
  have hreach : (fastNetwork 7 fiveAddr fiveDelay).system.Reaches ProposesInFastRound w :=
    System.Reaches.execWhile (.start rfl) hrun
  have hindex : Function.Injective fun i => stableNodeIndex (fiveAddr i) := by
    unfold Function.Injective
    decide +kernel
  exact ⟨w, hrun, hdecisions, fastPaxos_agree 7 fiveAddr fiveDelay hindex hreach⟩

def lateRun : List (NetAction 5 RapidRequest FastCommand) :=
  [.command 0 (.propose 0 early), .command 0 .startClassicRound,
    .deliver 0 (fivePrepare 0), .deliver 1 (fivePrepare 0), .deliver 2 (fivePrepare 0),
    .deliver 0 (fivePromise 0 0 fastRank early), .deliver 0 (fivePromise 0 1 ⟨0, 0⟩ []),
    .deliver 0 (fivePromise 0 2 ⟨0, 0⟩ []),
    .deliver 0 (fiveProposal 0 early), .deliver 1 (fiveProposal 0 early),
    .deliver 2 (fiveProposal 0 early),
    .deliver 0 (fiveVote 0 0 early), .deliver 0 (fiveVote 0 1 early), .deliver 0 (fiveVote 0 2 early),
    -- Instances 1 and 2 have promised and accepted; their machines ignore the votes they broadcast.
    .command 1 (.propose 0 late), .command 2 (.propose 0 late), .command 3 (.propose 0 late),
    .command 4 (.propose 0 late),
    .deliver 3 (fiveFast 1 late), .deliver 3 (fiveFast 2 late), .deliver 3 (fiveFast 3 late),
    .deliver 3 (fiveFast 4 late)]

/-- Two different decisions in one run: agreement fails when instances propose after promising. -/
theorem lateRun_disagree :
    (Function.Injective fun i => stableNodeIndex (fiveAddr i)) ∧
      ∃ w, (fastNetwork 7 fiveAddr fiveDelay).system.Reachable w ∧
        (0, early) ∈ w.decisions ∧ (3, late) ∈ w.decisions ∧ early ≠ late := by
  have hdecisions : ((fastNetwork 7 fiveAddr fiveDelay).system.exec
      (fastNetwork 7 fiveAddr fiveDelay).initial lateRun).map World.decisions =
        some [(0, early), (3, late)] := by
    decide +kernel
  rcases Option.map_eq_some_iff.1 hdecisions with ⟨w, hrun, hdec⟩
  refine ⟨?_, w, System.Reaches.exec (.start rfl) hrun, ?_, ?_, by decide⟩
  · unfold Function.Injective
    decide +kernel
  · rw [hdec]
    decide
  · rw [hdec]
    decide

end Runs

end Rapid
