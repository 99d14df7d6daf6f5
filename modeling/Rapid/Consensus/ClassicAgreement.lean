import Rapid.Consensus.ClassicNetwork
import Rapid.Xxh64Reference

/-!
# ClassicAgreement — safety of the classic rounds

The messages of a run form a voting record. The invariant of `ClassicNetwork` makes the record
lawful, every decision is a chosen value of it, and agreement follows from the voting library.
Validity is a separate, simpler invariant: every value on the wire was registered.
-/

namespace Rapid

open Foundations

/-! ## The voting record of a run -/

section Record

variable [Xxh64] {N : Nat} {addr : Fin N → Endpoint} {w : ClassicWorld N}

/-- The votes cast and the proposals made at classic ranks. -/
def classicRecord (addr : Fin N → Endpoint) (w : ClassicWorld N) :
    Voting.Record (Fin N) Rank (List Endpoint) where
  vote := Voted addr w.sent
  proposed := Proposed w.sent

/-- The acceptors whose promises are in `quorum`. -/
def sendersOf (addr : Fin N → Endpoint) (quorum : List Phase1bMessage) : Finset (Fin N) :=
  Finset.univ.filter fun a : Fin N => some (addr a) ∈ quorum.map Phase1bMessage.sender

theorem ClassicInv.promise_of_sent (hI : ClassicInv addr w) {m : Phase1bMessage} {r : Rank}
    (hm : ⟨some (.phase1bMessage m)⟩ ∈ w.sent) (hr : m.rnd = some r) :
    ∃ a vr, Promise addr w.sent w.nodes m a r vr := by
  rcases hI.wire _ hm with ⟨a, r', vr, hpromise⟩
  have heq : r' = r := Option.some.inj (hpromise.rnd.symm.trans hr)
  exact ⟨a, vr, heq ▸ hpromise⟩

/-- The promises behind a proposal come from as many acceptors. -/
theorem ClassicInv.card_sendersOf (hI : ClassicInv addr w) {r : Rank} {v : List Endpoint}
    {quorum : List Phase1bMessage} (hE : Evidence w.sent N quorum r v) :
    quorum.length ≤ (sendersOf addr quorum).card := by
  have hsubset : (quorum.map Phase1bMessage.sender).toFinset ⊆
      (sendersOf addr quorum).image fun a => some (addr a) := by
    intro s hs
    have hmem : s ∈ quorum.map Phase1bMessage.sender := List.mem_toFinset.1 hs
    rcases List.mem_map.1 hmem with ⟨m, hm, rfl⟩
    rcases hI.promise_of_sent (hE.sent m hm) (hE.rank m hm) with ⟨a, vr, hprom⟩
    refine Finset.mem_image.2 ⟨a, ?_, hprom.sender.symm⟩
    rw [sendersOf, Finset.mem_filter]
    exact ⟨Finset.mem_univ a, hprom.sender ▸ hmem⟩
  calc
    quorum.length = (quorum.map Phase1bMessage.sender).toFinset.card := by
      rw [List.toFinset_card_of_nodup hE.distinct, List.length_map]
    _ ≤ _ := Finset.card_le_card hsubset
    _ ≤ _ := Finset.card_image_le

/-- One value is proposed at a rank: the coordinator fixes it in `cval`. -/
theorem ClassicInv.proposed_unique (hI : ClassicInv addr w)
    (hindex : Function.Injective fun i => stableNodeIndex (addr i)) {r : Rank}
    {v u : List Endpoint} (hv : Proposed w.sent r v) (hu : Proposed w.sent r u) : v = u := by
  rcases hv with ⟨m, hm, hrnd, rfl⟩
  rcases hu with ⟨m', hm', hrnd', rfl⟩
  rcases hI.wire _ hm with ⟨i, hi, _, hcval, _⟩
  rcases hI.wire _ hm' with ⟨j, hj, _, hcval', _⟩
  have hrank : Paxos.coordinatorRank (addr i) = Paxos.coordinatorRank (addr j) := by
    apply Option.some.inj
    rw [← hi, ← hj, hrnd, hrnd']
  have hij : i = j := hindex (congrArg Rank.nodeIndex hrank)
  subst hij
  exact hcval.symm.trans hcval'

/-- The promises behind a proposal are the support the voting library asks for. Their highest
vote rank is `k`. -/
theorem ClassicInv.support (hI : ClassicInv addr w)
    (hindex : Function.Injective fun i => stableNodeIndex (addr i)) {r : Rank}
    {v : List Endpoint} {quorum : List Phase1bMessage}
    (hE : Evidence w.sent N quorum r v) {k : Rank}
    (hk : (quorum.filterMap Phase1bMessage.vrnd).max? = some k) :
    Voting.Support (classicRecord addr w) fastRank (sendersOf addr quorum) k r v := by
  have hpromise : ∀ m ∈ quorum, ∃ a vr, Promise addr w.sent w.nodes m a r vr :=
    fun m hm => hI.promise_of_sent (hE.sent m hm) (hE.rank m hm)
  have hkmax := List.max?_eq_some_iff.1 hk
  have hle : ∀ m ∈ quorum, ∀ vr, m.vrnd = some vr → vr ≤ k :=
    fun m hm vr hvr => hkmax.2 vr (List.mem_filterMap.2 ⟨m, hm, hvr⟩)
  refine ⟨?_, ?_, ?_, ?_⟩
  · -- More than `N / 2` distinct senders.
    have hcard := hI.card_sendersOf hE
    have hlarge : N / 2 < quorum.length := hE.large
    rw [Voting.Majority, Fintype.card_fin]
    omega
  · -- The highest reported rank is below the rank promised.
    rcases List.mem_filterMap.1 hkmax.1 with ⟨m, hm, hvrnd⟩
    rcases hpromise m hm with ⟨a, vr, hprom⟩
    have heq : vr = k := Option.some.inj (hprom.vrnd.symm.trans hvrnd)
    exact heq ▸ hprom.below
  · intro a ha k' u hvoted hlt
    -- A promise reports the highest vote of its sender, so no vote lies between.
    rcases List.mem_map.1 (Finset.mem_filter.1 ha).2 with ⟨m, hm, hsender⟩
    rcases hpromise m hm with ⟨a', vr, hprom⟩
    have haddr : addr a' = addr a := Option.some.inj (hprom.sender.symm.trans hsender)
    have hbelow : k' ≤ vr := by
      refine hprom.complete k' u ?_ hlt
      rcases hvoted with ⟨m', hm', hs', hrest⟩
      exact ⟨m', hm', by rw [hs', haddr], hrest⟩
    exact le_trans hbelow (hle m hm vr hprom.vrnd)
  · -- All reports of a classic rank `k` carry the value proposed there.
    intro hfast
    have hreport : ∀ m ∈ quorum, m.vrnd = some k → Proposed w.sent k m.vval := by
      intro m hm hvrnd
      rcases hpromise m hm with ⟨a, vr, hprom⟩
      have heq : vr = k := Option.some.inj (hprom.vrnd.symm.trans hvrnd)
      subst heq
      exact hprom.inherited hfast
    rcases List.mem_filterMap.1 hkmax.1 with ⟨m, hm, hvrnd⟩
    have hm' : Proposed w.sent k m.vval := hreport m hm hvrnd
    have hvalue : m.vval ≠ [] := by
      rcases hm' with ⟨m₂, hm₂, _, hval⟩
      rcases hI.wire _ hm₂ with ⟨i, _, _, _, hne₂, _⟩
      exact hval ▸ hne₂
    have hrule : Paxos.selectProposalFromMessages quorum N = m.vval := by
      refine Paxos.selectProposal_of_agree hk ?_ hvalue
      intro m₂ hm₂ hvrnd₂
      exact hI.proposed_unique hindex (hreport m₂ hm₂ hvrnd₂) hm'
    rw [← hE.rule, hrule]
    exact hm'

/-- A report set behind a proposal has a highest vote rank. -/
theorem ClassicInv.exists_max (hI : ClassicInv addr w) {r : Rank} {v : List Endpoint}
    {quorum : List Phase1bMessage} (hE : Evidence w.sent N quorum r v) :
    ∃ k, (quorum.filterMap Phase1bMessage.vrnd).max? = some k := by
  cases hq : quorum with
  | nil =>
      have hlarge : N / 2 < quorum.length := hE.large
      rw [hq] at hlarge
      exact absurd hlarge (Nat.not_lt_zero _)
  | cons m rest =>
      have hm : m ∈ quorum := by
        rw [hq]
        exact List.mem_cons_self
      rcases hI.promise_of_sent (hE.sent m hm) (hE.rank m hm) with ⟨a, vr, hprom⟩
      cases hmax : ((m :: rest).filterMap Phase1bMessage.vrnd).max? with
      | some k => exact ⟨k, rfl⟩
      | none =>
          rw [List.max?_eq_none_iff, List.filterMap_cons, hprom.vrnd] at hmax
          cases hmax

theorem ClassicInv.evidence (hI : ClassicInv addr w) {r : Rank} {v : List Endpoint}
    (hv : Proposed w.sent r v) : ∃ quorum, Evidence w.sent N quorum r v := by
  rcases hv with ⟨m, hm, hrnd, rfl⟩
  rcases hI.wire _ hm with ⟨i, hi, _, _, _, quorum, hE⟩
  have heq : Paxos.coordinatorRank (addr i) = r := Option.some.inj (hi.symm.trans hrnd)
  exact ⟨quorum, heq ▸ hE⟩

theorem ClassicInv.lawful (hI : ClassicInv addr w)
    (hindex : Function.Injective fun i => stableNodeIndex (addr i)) :
    Voting.Lawful (classicRecord addr w) fastRank where
  unique r v u hv hu := hI.proposed_unique hindex hv hu
  voted a r v _ hvoted := by
    rcases hvoted with ⟨m, hm, hsender, hrnd, rfl⟩
    rcases hI.wire _ hm with ⟨a', r', _, hrnd', _, _, hprop⟩
    have heq : r' = r := Option.some.inj (hrnd'.symm.trans hrnd)
    exact heq ▸ hprop
  supported r v hv := by
    rcases hI.evidence hv with ⟨quorum, hE⟩
    rcases hI.exists_max hE with ⟨k, hk⟩
    exact ⟨_, k, hI.support hindex hE hk⟩

/-- A decision is chosen at its rank: all votes there carry the one value proposed. -/
theorem ClassicInv.chosen (hI : ClassicInv addr w)
    (hindex : Function.Injective fun i => stableNodeIndex (addr i)) {v : List Endpoint}
    (hv : DecidedAt w.sent N v) :
    ∃ r, fastRank < r ∧ Proposed w.sent r v ∧ Voting.Chosen (classicRecord addr w) r v := by
  rcases hv with ⟨r, S, hcard, hS, m, hm, hrnd, rfl⟩
  have hvote : ∀ m' : Phase2bMessage, ⟨some (.phase2bMessage m')⟩ ∈ w.sent → m'.rnd = some r →
      fastRank < r ∧ Proposed w.sent r m'.endpoints ∧
        ∃ a, m'.sender = some (addr a) := by
    intro m' hm' hrnd'
    rcases hI.wire _ hm' with ⟨a, r', hsender, hr', hfast, _, hprop⟩
    have heq : r' = r := Option.some.inj (hr'.symm.trans hrnd')
    subst heq
    exact ⟨hfast, hprop, a, hsender⟩
  rcases hvote m hm hrnd with ⟨hfast, hprop, _⟩
  refine ⟨r, hfast, hprop, ?_⟩
  -- The senders the decision counts are voters of the record.
  have hsubset : S ⊆ ((classicRecord addr w).voters r m.endpoints).image addr := by
    intro s hs
    rcases hS s hs with ⟨m', hm', hrnd', hsender'⟩
    rcases hvote m' hm' hrnd' with ⟨_, hprop', a, ha⟩
    refine Finset.mem_image.2 ⟨a, ?_, Option.some.inj (ha.symm.trans hsender')⟩
    rw [Voting.Record.mem_voters]
    exact ⟨m', hm', ha, hrnd', hI.proposed_unique hindex hprop' hprop⟩
  have hle : S.card ≤ ((classicRecord addr w).voters r m.endpoints).card :=
    le_trans (Finset.card_le_card hsubset) Finset.card_image_le
  rw [Voting.Chosen, Voting.Majority, Fintype.card_fin]
  omega

/-- Two classic decisions agree. -/
theorem ClassicInv.decided_agree (hI : ClassicInv addr w)
    (hindex : Function.Injective fun i => stableNodeIndex (addr i)) {v u : List Endpoint}
    (hv : DecidedAt w.sent N v) (hu : DecidedAt w.sent N u) : v = u := by
  rcases hI.chosen hindex hv with ⟨i, hi, _, hchosen⟩
  rcases hI.chosen hindex hu with ⟨j, hj, _, hchosen'⟩
  exact hchosen.agree (hI.lawful hindex) hchosen' hi hj

end Record

/-! ## Validity -/

section Validity

variable [Xxh64] {N : Nat}

/-- The values a message carries satisfy `P`; a promise may also report that there was no vote. -/
def Carries (P : List Endpoint → Prop) (request : RapidRequest) : Prop :=
  match request.content with
  | some (.phase1bMessage m) => m.vval = [] ∨ P m.vval
  | some (.phase2aMessage m) => P m.vval
  | some (.phase2bMessage m) => P m.endpoints
  | _ => True

structure ValueInv (P : List Endpoint → Prop) (w : ClassicWorld N) : Prop where
  node : ∀ i, (w.nodes i).vval = [] ∨ P (w.nodes i).vval
  wire : ∀ request ∈ w.sent, Carries P request
  decided : ∀ d ∈ w.decisions, P d.2

variable {P : List Endpoint → Prop}

/-- A move hands on values it was given: by its command, its input or its machine. -/
theorem values_of_move {p p' : Paxos} {input : PaxosCommand ⊕ RapidRequest}
    {outs : List PaxosOutgoing} (hmove : Paxos.Move p input p' outs)
    (hp : p.vval = [] ∨ P p.vval) (hheld : ∀ m ∈ p.phase1bMessages, m.vval = [] ∨ P m.vval)
    (hcommand : ∀ v, input = .inl (.registerFastRoundVote v) → P v)
    (hin : ∀ m, input = .inr m → Carries P m) :
    (p'.vval = [] ∨ P p'.vval) ∧ (∀ e ∈ outs, ∀ r, e.message? = some r → Carries P r) ∧
      ∀ v, Emission.decision v ∈ outs → P v := by
  -- Most moves keep the vote and emit at most one effect.
  have hone : ∀ {e : PaxosOutgoing} {r : RapidRequest}, e.message? = some r → Carries P r →
      (∀ e' ∈ [e], ∀ r', e'.message? = some r' → Carries P r') ∧
        ∀ v, Emission.decision v ∈ [e] → P v := by
    intro e r hr hcarries
    refine ⟨?_, ?_⟩
    · intro e' he' r' hr'
      rcases List.mem_singleton.1 he' with rfl
      rw [hr] at hr'
      cases hr'
      exact hcarries
    · intro v hv
      rcases List.mem_singleton.1 hv with rfl
      cases hr
  have hnone : (∀ e ∈ ([] : List PaxosOutgoing), ∀ r, e.message? = some r → Carries P r) ∧
      ∀ v, Emission.decision v ∈ ([] : List PaxosOutgoing) → P v :=
    ⟨fun e he => (by cases he), fun v hv => (by cases hv)⟩
  cases hmove with
  | idle => exact ⟨hp, hnone⟩
  | register vote => exact ⟨.inr (hcommand vote rfl), hnone⟩
  | prepare => exact ⟨hp, hone rfl trivial⟩
  | promiseSilent => exact ⟨hp, hnone⟩
  | promise m rank sender => exact ⟨hp, hone rfl hp⟩
  | collect => exact ⟨hp, hnone⟩
  | propose m chosen hrnd hquorum hchosen hne hcval =>
      refine ⟨hp, hone rfl ?_⟩
      -- The rule only returns reported values.
      rcases Paxos.selectProposal_mem (hchosen.symm ▸ hne) with ⟨m', hm', hval⟩
      have hreported : m'.vval = [] ∨ P m'.vval := by
        rcases List.mem_append.1 hm' with hold | hlast
        · exact hheld m' hold
        · rcases List.mem_singleton.1 hlast with rfl
          exact hin _ rfl
      rw [hval, hchosen] at hreported
      exact hreported.resolve_left hne
  | accept m rnd =>
      have hm : P m.vval := hin _ rfl
      exact ⟨.inr hm, hone rfl hm⟩
  | learn => exact ⟨hp, hnone⟩
  | decide m =>
      refine ⟨hp, ?_, ?_⟩
      · intro e he r hr
        rcases List.mem_singleton.1 he with rfl
        cases hr
      · intro v hv
        cases List.mem_singleton.1 hv
        exact hin _ rfl

omit [Xxh64] in
theorem Carries.mono {Q : List Endpoint → Prop} (hPQ : ∀ v, P v → Q v) {request : RapidRequest}
    (h : Carries P request) : Carries Q request := by
  obtain ⟨content⟩ := request
  cases content with
  | none => trivial
  | some content =>
      cases content with
      | phase1bMessage m => exact h.imp_right (hPQ _)
      | phase2aMessage m => exact hPQ _ h
      | phase2bMessage m => exact hPQ _ h
      | _ => trivial

omit [Xxh64] in
theorem ValueInv.mono {Q : List Endpoint → Prop} (hPQ : ∀ v, P v → Q v) {w : ClassicWorld N}
    (h : ValueInv P w) : ValueInv Q w :=
  ⟨fun i => (h.node i).imp_right (hPQ _), fun r hr => (h.wire r hr).mono hPQ,
    fun d hd => hPQ _ (h.decided d hd)⟩

/-- `v` was passed to `register_fast_round_vote` at some instance. -/
def Registered (w : ClassicWorld N) (v : List Endpoint) : Prop :=
  ∃ i, (i, PaxosCommand.registerFastRoundVote v) ∈ w.issued

variable {configurationId : Int64} {addr : Fin N → Endpoint} {w : ClassicWorld N}

theorem ValueInv.react (hI : ClassicInv addr w) (hV : ValueInv (Registered w) w) {i : Fin N}
    {input : PaxosCommand ⊕ RapidRequest} {r : Paxos × List PaxosOutgoing}
    (hmove : Paxos.Move (w.nodes i) input r.1 r.2) (hin : ∀ m, input = .inr m → m ∈ w.sent) :
    ValueInv (Registered (Protocol.consume w i input))
      ((classicNetwork configurationId addr).post (Protocol.consume w i input) i r) := by
  have hgrow : ∀ v, Registered w v → Registered (Protocol.consume w i input) v := by
    rintro v ⟨j, hj⟩
    exact ⟨j, Protocol.issued_subset_consume w i input hj⟩
  have hV' := hV.mono hgrow
  -- Values come from the registered votes and from the messages handled.
  rcases values_of_move (P := Registered (Protocol.consume w i input)) hmove (hV'.node i)
    (fun m hm => hV'.wire _ ((hI.node i).collected m hm).1)
    (fun v hv => ⟨i, by rw [hv]; exact List.mem_append_right _ List.mem_cons_self⟩)
    (fun m hm => hV'.wire m (hin m hm)) with ⟨hnode, hwire, hdecided⟩
  have hreacted := Protocol.reacted (classicNetwork configurationId addr) w i input r
  refine ⟨?_, ?_, ?_⟩
  · exact hreacted.nodes
      (Q := fun _ p => p.vval = [] ∨ Registered (Protocol.consume w i input) p.vval) hnode hV'.node
  · intro request hrequest
    rcases (hreacted.sent request).1 hrequest with hold | ⟨e, he, hmsg⟩
    · exact hV'.wire request hold
    · exact hwire e he request hmsg
  · intro d hd
    rw [Protocol.mem_post_decisions, Protocol.consume_decisions] at hd
    rcases hd with hold | ⟨-, hdec⟩
    · exact hV'.decided d hold
    · exact hdecided _ hdec

/-- Every value in a run was registered at some instance. -/
theorem ValueInv.reaches (hinj : Function.Injective addr)
    {ok : ClassicWorld N → NetAction N RapidRequest PaxosCommand → Prop}
    (h : (classicNetwork configurationId addr).system.Reaches ok w) :
    ValueInv (Registered w) w := by
  refine h.invariant (I := fun w => ValueInv (Registered w) w) ?_ ?_
  · intro w hw
    rw [show w = (classicNetwork configurationId addr).initial from hw]
    exact ⟨fun i => .inl rfl, fun r hr => (by cases hr), fun d hd => (by cases hd)⟩
  · intro w a w' hw hV _ hstep
    rcases Protocol.step_cases hstep with ⟨i, input, _, havail, rfl⟩ | ⟨j, m, _, hin, rfl⟩
    · refine ValueInv.react (.reaches hinj hw) hV (react_move i input) ?_
      rintro m rfl
      exact Protocol.inflight_sent hw _ havail
    · exact ⟨hV.node, hV.wire, hV.decided⟩

end Validity

/-! ## Safety -/

section Safety

variable [Xxh64] {N : Nat}

/-- All decisions of a run carry one list, and that list was registered as a fast-round vote. -/
theorem classicPaxos_safe (configurationId : Int64) (addr : Fin N → Endpoint)
    (hindex : Function.Injective fun i => stableNodeIndex (addr i)) {w : ClassicWorld N}
    (hw : (classicNetwork configurationId addr).system.Reachable w) :
    (∀ d ∈ w.decisions, ∀ d' ∈ w.decisions, d.2 = d'.2) ∧
      ∀ d ∈ w.decisions, ∃ i, (i, PaxosCommand.registerFastRoundVote d.2) ∈ w.issued := by
  -- Distinct indices belong to distinct endpoints.
  have hinj : Function.Injective addr := fun i j hij => hindex (congrArg stableNodeIndex hij)
  have hI : ClassicInv addr w := .reaches hinj hw
  refine ⟨?_, ?_⟩
  · intro d hd d' hd'
    exact hI.decided_agree hindex (hI.decided d hd) (hI.decided d' hd')
  · intro d hd
    exact (ValueInv.reaches hinj hw).decided d hd

end Safety

/-! ### A run with a classic decision

Three instances, two of them with different fast votes; instance 0 coordinates and hears from 0
and 1. -/

section Run

attribute [local instance] xxh64Reference

def threeAddr : Fin 3 → Endpoint :=
  fun i => ⟨[97], Int32.ofNat i⟩

def threeVote : Fin 3 → List Endpoint :=
  fun i => [⟨[98], Int32.ofNat i⟩]

def threeRun : List (NetAction 3 RapidRequest PaxosCommand) :=
  let rank := Paxos.coordinatorRank (threeAddr 0)
  let prepare : RapidRequest := ⟨some (.phase1aMessage ⟨some (threeAddr 0), 7, some rank⟩)⟩
  let promise (a : Fin 3) (v : List Endpoint) : RapidRequest :=
    ⟨some (.phase1bMessage ⟨some (threeAddr a), 7, some rank, some fastRank, v⟩)⟩
  let proposal : RapidRequest :=
    ⟨some (.phase2aMessage ⟨some (threeAddr 0), 7, some rank, threeVote 1⟩)⟩
  let vote (a : Fin 3) : RapidRequest :=
    ⟨some (.phase2bMessage ⟨some (threeAddr a), 7, some rank, threeVote 1⟩)⟩
  [.command 0 (.registerFastRoundVote (threeVote 0)),
    .command 1 (.registerFastRoundVote (threeVote 1)),
    .command 0 .startPhase1a,
    .deliver 1 prepare, .deliver 0 prepare,
    .deliver 0 (promise 1 (threeVote 1)), .deliver 0 (promise 0 (threeVote 0)),
    .deliver 0 proposal, .deliver 1 proposal, .lose 2 proposal,
    .deliver 2 (vote 1), .deliver 2 (vote 0)]

theorem threeRun_decisions :
    ((classicNetwork 7 threeAddr).system.exec (classicNetwork 7 threeAddr).initial threeRun).map
      World.decisions = some [(2, threeVote 1)] := by
  decide +kernel

theorem threeRun_safe :
    ∃ w, (classicNetwork 7 threeAddr).system.exec (classicNetwork 7 threeAddr).initial threeRun =
        some w ∧ w.decisions = [(2, threeVote 1)] ∧
      (∀ d ∈ w.decisions, ∀ d' ∈ w.decisions, d.2 = d'.2) ∧
      ∀ d ∈ w.decisions, ∃ i, (i, PaxosCommand.registerFastRoundVote d.2) ∈ w.issued := by
  rcases Option.map_eq_some_iff.1 threeRun_decisions with ⟨w, hrun, hdecisions⟩
  have hreach : (classicNetwork 7 threeAddr).system.Reachable w :=
    System.Reaches.exec (.start rfl) hrun
  have hindex : Function.Injective fun i => stableNodeIndex (threeAddr i) := by
    unfold Function.Injective
    decide +kernel
  exact ⟨w, hrun, hdecisions, classicPaxos_safe 7 threeAddr hindex hreach⟩

end Run

end Rapid
