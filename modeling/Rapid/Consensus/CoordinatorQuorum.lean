import Rapid.Consensus.Moves
import Rapid.Consensus.CoordinatorRule
import Rapid.Foundations.History
import Rapid.Foundations.Transition
import Rapid.Xxh64Reference

/-!
# CoordinatorQuorum — what a Phase2a message rests on

A coordinator starts rounds with `start_phase1a` and collects promises with `handle_phase1b`. A
`Phase2aMessage` of rank `r` should rest on the promises for `r` of more than half of the acceptors.
The code counts the messages it has collected:

* a sender that promises twice is counted twice, and so is a message without a sender;
* the list is not emptied when a new round starts.

`PromisesOnce` is a condition on the calls: until a value is chosen, every promise taken names a sender
that has not promised this rank before, and the rank is left only while nobody has promised it. Under
it the count is a count of acceptors: `RealQuorum` holds whenever a collection ends, and every
proposal broadcast rests on a quorum.
-/

namespace Rapid

open Foundations

/-! ## Calls and histories -/

inductive CoordinatorCall
  | startPhase1a (round : Int32)
  | handlePhase1b (m : Phase1bMessage)

def CoordinatorCall.message? : CoordinatorCall → Option Phase1bMessage
  | startPhase1a _ => none
  | handlePhase1b m => some m

structure CoordinatorRecord where
  call : CoordinatorCall
  emitted : List PaxosOutgoing

structure CoordinatorRun where
  self : Paxos
  history : List CoordinatorRecord

/-- The promises handled so far, taken or not. -/
def handledPromises (history : List CoordinatorRecord) : List Phase1bMessage :=
  history.filterMap fun e => e.call.message?

/-- The promises handled so far for the rank the coordinator is in. -/
def handledForRank (r : CoordinatorRun) : List Phase1bMessage :=
  (handledPromises r.history).filter fun m =>
    m.configurationId = r.self.configurationId ∧ m.rnd = some r.self.crnd

def promiseSenders (messages : List Phase1bMessage) : Finset Endpoint :=
  (messages.filterMap Phase1bMessage.sender).toFinset

/-- Some of the promises handled so far are for rank `r`, come from more than half of the acceptors, and
lead the coordinator rule to `v`. -/
def RestsOnQuorum (n : Nat) (configurationId : Int64) (handled : List Phase1bMessage) (r : Rank)
    (v : List Endpoint) : Prop :=
  ∃ quorum : List Phase1bMessage, quorum.Sublist handled ∧
    (∀ m ∈ quorum, m.configurationId = configurationId ∧ m.rnd = some r) ∧
    n / 2 < (promiseSenders quorum).card ∧ v = Paxos.selectProposalFromMessages quorum n

/-- Every proposal broadcast rests on a quorum of the promises handled until then. -/
def ProposalsBacked (n : Nat) (configurationId : Int64) (history : List CoordinatorRecord) : Prop :=
  Past (fun earlier e => ∀ a, .broadcast ⟨some (.phase2aMessage a)⟩ ∈ e.emitted →
    ∃ r, a.rnd = some r ∧
      RestsOnQuorum n configurationId (handledPromises (earlier ++ [e])) r a.vval) history

/-! ## The condition -/

section Condition

variable [Xxh64]

/-- As long as no value is chosen, a sender promises a rank once and by name, and the coordinator goes on
to another rank only while the current one has not been promised. -/
def PromisesOnce (r : CoordinatorRun) : CoordinatorCall → Prop
  | .startPhase1a round =>
      r.self.cval = [] → handledForRank r ≠ [] →
        round < r.self.crnd.round ∨ (⟨round, stableNodeIndex r.self.myAddr⟩ : Rank) = r.self.crnd
  | .handlePhase1b m =>
      r.self.cval = [] → m.configurationId = r.self.configurationId → m.rnd = some r.self.crnd →
        m.sender ≠ none ∧ ∀ m' ∈ handledForRank r, m'.sender ≠ m.sender

instance (r : CoordinatorRun) (c : CoordinatorCall) : Decidable (PromisesOnce r c) :=
  match c with
  | .startPhase1a _ => inferInstanceAs (Decidable (_ → _ → _))
  | .handlePhase1b _ => inferInstanceAs (Decidable (_ → _ → _ → _))

end Condition

/-! ## The collected list -/

/-- The promise is taken, the count of promises passes half of the acceptors, and a value is
proposed for the first time. -/
def EndsCollection (p : Paxos) (m : Phase1bMessage) : Prop :=
  m.configurationId = p.configurationId ∧ m.rnd = some p.crnd ∧ p.cval = [] ∧
    p.n / 2 < (p.phase1bMessages ++ [m]).length ∧
    ∃ m' ∈ p.phase1bMessages ++ [m], m'.vval ≠ []

instance (p : Paxos) (m : Phase1bMessage) : Decidable (EndsCollection p m) :=
  inferInstanceAs (Decidable (_ ∧ _ ∧ _ ∧ _ ∧ _))

/-- The promises collected are all for the current rank, and their senders are more than half of the
acceptors. -/
def RealQuorum (p : Paxos) (m : Phase1bMessage) : Prop :=
  (∀ m' ∈ p.phase1bMessages, m'.rnd = some p.crnd) ∧
    p.n / 2 < (promiseSenders (p.phase1bMessages ++ [m])).card

/-- A collection ends over a real quorum only. -/
def CollectsQuorum (r : CoordinatorRun) : CoordinatorCall → Prop
  | .startPhase1a _ => True
  | .handlePhase1b m => EndsCollection r.self m → RealQuorum r.self m

/-! ## What one call does -/

section Calls

variable {p : Paxos} {m : Phase1bMessage} {a : Phase2aMessage}

theorem handlePhase1b_of_ne (h : m.configurationId ≠ p.configurationId) :
    p.handlePhase1b m = (p, []) := by
  unfold Paxos.handlePhase1b
  exact if_pos h

variable [Xxh64]

/-- A promise is added to the list or changes nothing. -/
theorem handlePhase1b_collects (p : Paxos) (m : Phase1bMessage) :
    (p.handlePhase1b m).1.n = p.n ∧ (p.handlePhase1b m).1.configurationId = p.configurationId ∧
      ((p.handlePhase1b m).1.phase1bMessages = p.phase1bMessages ∨
        m.configurationId = p.configurationId ∧
          (p.handlePhase1b m).1.phase1bMessages = p.phase1bMessages ++ [m]) := by
  by_cases hconfig : m.configurationId = p.configurationId
  · have hmove := p.handlePhase1b_move m
    generalize (p.handlePhase1b m).1 = p' at hmove ⊢
    generalize (p.handlePhase1b m).2 = outs at hmove
    cases hmove with
    | idle => exact ⟨rfl, rfl, Or.inl rfl⟩
    | collect => exact ⟨rfl, rfl, Or.inr ⟨hconfig, rfl⟩⟩
    | propose => exact ⟨rfl, rfl, Or.inr ⟨hconfig, rfl⟩⟩
  · rw [handlePhase1b_of_ne hconfig]
    exact ⟨rfl, rfl, Or.inl rfl⟩

/-- A proposal ends the collection; it carries the value of the rule over all promises collected. -/
theorem handlePhase1b_proposes (h : .broadcast ⟨some (.phase2aMessage a)⟩ ∈ (p.handlePhase1b m).2) :
    EndsCollection p m ∧ a.rnd = some p.crnd ∧
      a.vval = Paxos.selectProposalFromMessages (p.phase1bMessages ++ [m]) p.n := by
  by_cases hconfig : m.configurationId = p.configurationId
  · have hmove := p.handlePhase1b_move m
    generalize (p.handlePhase1b m).1 = p' at hmove
    generalize (p.handlePhase1b m).2 = outs at hmove h
    cases hmove with
    | idle => cases h
    | collect => cases h
    | propose _ chosen hrnd hcount hchosen hne hcval =>
        cases List.mem_singleton.1 h
        have hvalue : ∃ m' ∈ p.phase1bMessages ++ [m], m'.vval ≠ [] := by
          rw [← hchosen] at hne
          rcases Paxos.selectProposal_mem hne with ⟨m', hm', heq⟩
          exact ⟨m', hm', by rwa [heq]⟩
        exact ⟨⟨hconfig, hrnd, hcval, hcount, hvalue⟩, rfl, hchosen.symm⟩
  · rw [handlePhase1b_of_ne hconfig] at h
    cases h

omit [Xxh64] in
/-- A collection that ends with a value in hand broadcasts it. -/
theorem handlePhase1b_broadcasts (hends : EndsCollection p m)
    (hchosen : Paxos.selectProposalFromMessages (p.phase1bMessages ++ [m]) p.n ≠ []) :
    (p.handlePhase1b m).2 = [.broadcast ⟨some (.phase2aMessage (p.proposalMessage
      (Paxos.selectProposalFromMessages (p.phase1bMessages ++ [m]) p.n)))⟩] := by
  rcases hends with ⟨hconfig, hrnd, hcval, hcount, _⟩
  unfold Paxos.handlePhase1b
  rw [if_neg (not_not.2 hconfig), hrnd]
  simp only [compareRanks_eq_eq, ne_eq, not_true_eq_false, if_false]
  rw [if_neg (Nat.not_le.2 hcount), if_neg]
  · rfl
  · simpa [hcval, Paxos.selectProposalUsingCoordinatorRule] using hchosen

omit [Xxh64] in
/-- What rests on a quorum has the senders of one. -/
theorem RestsOnQuorum.senders {n : Nat} {configurationId : Int64} {handled : List Phase1bMessage}
    {r : Rank} {v : List Endpoint} (h : RestsOnQuorum n configurationId handled r v) :
    n / 2 < (promiseSenders (handled.filter fun m => m.rnd = some r)).card := by
  rcases h with ⟨quorum, hsub, hown, hcard, _⟩
  refine lt_of_lt_of_le hcard (Finset.card_le_card ?_)
  intro s hs
  rcases List.mem_filterMap.1 (List.mem_toFinset.1 hs) with ⟨m, hm, hsender⟩
  refine List.mem_toFinset.2 (List.mem_filterMap.2 ⟨m, List.mem_filter.2 ⟨hsub.subset hm, ?_⟩, hsender⟩)
  simpa using (hown m hm).2

end Calls

/-! ## Runs -/

section Runs

variable [Xxh64]

def Paxos.coordinate (p : Paxos) : CoordinatorCall → Paxos × List PaxosOutgoing
  | .startPhase1a round => p.startPhase1a round
  | .handlePhase1b m => p.handlePhase1b m

def coordinatorSystem (addr : Endpoint) (configurationId : Int64) (n : Nat) :
    System CoordinatorRun CoordinatorCall where
  init r := r = ⟨Paxos.new addr configurationId n, []⟩
  step r c := some ⟨(r.self.coordinate c).1, r.history ++ [⟨c, (r.self.coordinate c).2⟩]⟩

variable {addr : Endpoint} {configurationId : Int64} {n : Nat} {r : CoordinatorRun}

/-- The promises collected are promises of the configuration that were handled, in that order. -/
structure Collected (n : Nat) (configurationId : Int64) (r : CoordinatorRun) : Prop where
  size : r.self.n = n
  configuration : r.self.configurationId = configurationId
  handled : r.self.phase1bMessages.Sublist (handledPromises r.history)
  own : ∀ m ∈ r.self.phase1bMessages, m.configurationId = configurationId
  backed : ProposalsBacked n configurationId r.history

omit [Xxh64] in
theorem handledPromises_append (history : List CoordinatorRecord) (e : CoordinatorRecord) :
    handledPromises (history ++ [e]) = handledPromises history ++ e.call.message?.toList := by
  cases hmessage : e.call.message? with
  | none => simp [handledPromises, hmessage]
  | some m => simp [handledPromises, hmessage]

/-- `start_phase1a` changes the current rank only, and sends no proposal. -/
theorem Collected.start (h : Collected n configurationId r) (round : Int32) :
    Collected n configurationId ⟨(r.self.startPhase1a round).1,
      r.history ++ [⟨.startPhase1a round, (r.self.startPhase1a round).2⟩]⟩ := by
  have hpart : (r.self.startPhase1a round).1.n = r.self.n ∧
      (r.self.startPhase1a round).1.configurationId = r.self.configurationId ∧
      (r.self.startPhase1a round).1.phase1bMessages = r.self.phase1bMessages ∧
      ∀ a, .broadcast ⟨some (.phase2aMessage a)⟩ ∉ (r.self.startPhase1a round).2 := by
    unfold Paxos.startPhase1a
    split
    · simp
    · simp
  rcases hpart with ⟨hn, hconfig, hmessages, hsilent⟩
  refine ⟨hn.trans h.size, hconfig.trans h.configuration, ?_, ?_, ?_⟩
  · rw [handledPromises_append]
    simpa [hmessages, CoordinatorCall.message?] using h.handled
  · simpa [hmessages] using h.own
  · exact past_append_singleton.2 ⟨h.backed, fun a ha => absurd ha (hsilent a)⟩

/-- A proposal that ends a collection over a real quorum rests on the promises collected. -/
theorem Collected.promise (h : Collected n configurationId r) {m : Phase1bMessage}
    (hquorum : EndsCollection r.self m → RealQuorum r.self m) :
    Collected n configurationId ⟨(r.self.handlePhase1b m).1,
      r.history ++ [⟨.handlePhase1b m, (r.self.handlePhase1b m).2⟩]⟩ := by
  rcases handlePhase1b_collects r.self m with ⟨hn, hconfig, hmessages⟩
  have hhandled : (r.self.phase1bMessages ++ [m]).Sublist (handledPromises r.history ++ [m]) :=
    h.handled.append (List.Sublist.refl [m])
  refine ⟨hn.trans h.size, hconfig.trans h.configuration, ?_, ?_, ?_⟩
  · rw [handledPromises_append]
    rcases hmessages with hsame | ⟨_, hadded⟩
    · rw [hsame]
      exact h.handled.trans (List.sublist_append_left _ _)
    · rw [hadded]
      exact hhandled
  · intro m' hm'
    rcases hmessages with hsame | ⟨hown, hadded⟩
    · exact h.own m' (hsame ▸ hm')
    · rcases List.mem_append.1 (hadded ▸ hm') with hold | hnew
      · exact h.own m' hold
      · rw [List.mem_singleton.1 hnew, hown, h.configuration]
  · refine past_append_singleton.2 ⟨h.backed, fun a ha => ?_⟩
    -- A value is proposed with the promise that ends the collection.
    rcases handlePhase1b_proposes ha with ⟨hends, hrank, hvalue⟩
    rcases hquorum hends with ⟨hranks, hsenders⟩
    refine ⟨r.self.crnd, hrank, r.self.phase1bMessages ++ [m], ?_, ?_, ?_, ?_⟩
    · rw [handledPromises_append]
      exact hhandled
    · intro m' hm'
      rcases List.mem_append.1 hm' with hold | hnew
      · exact ⟨h.own m' hold, hranks m' hold⟩
      · cases List.mem_singleton.1 hnew
        exact ⟨hends.1.trans h.configuration, hends.2.1⟩
    · rw [← h.size]
      exact hsenders
    · rw [hvalue, h.size]

theorem collected
    (h : System.Reaches (coordinatorSystem addr configurationId n) CollectsQuorum r) :
    Collected n configurationId r := by
  refine h.invariant ?_ ?_
  · rintro r rfl
    exact ⟨rfl, rfl, List.Sublist.refl _, fun m hm => (List.not_mem_nil hm).elim, past_nil⟩
  · intro r c r' _ hI hquorum hstep
    cases hstep
    cases c with
    | startPhase1a round => exact hI.start round
    | handlePhase1b m => exact hI.promise hquorum

/-- Every proposal rests on a quorum, in runs that end each collection over a real one. -/
theorem proposals_backed
    (h : System.Reaches (coordinatorSystem addr configurationId n) CollectsQuorum r) :
    ProposalsBacked n configurationId r.history :=
  (collected h).backed

/-! ### From the calls to the collected list -/

/-- The promises collected are for the current rank, one from each of their senders. -/
structure OneVoiceEach (p : Paxos) : Prop where
  current : ∀ m ∈ p.phase1bMessages, m.rnd = some p.crnd
  named : ∀ m ∈ p.phase1bMessages, m.sender ≠ none
  once : (p.phase1bMessages.map Phase1bMessage.sender).Nodup

omit [Xxh64] in
/-- Promises of distinct, named senders are as many as their senders. -/
theorem card_promiseSenders {messages : List Phase1bMessage}
    (hnamed : ∀ m ∈ messages, m.sender ≠ none)
    (honce : (messages.map Phase1bMessage.sender).Nodup) :
    (promiseSenders messages).card = messages.length := by
  have hmap : (messages.filterMap Phase1bMessage.sender).map some =
      messages.map Phase1bMessage.sender := by
    rw [List.map_filterMap_some_eq_filter_map_isSome, List.filter_eq_self]
    intro s hs
    rcases List.mem_map.1 hs with ⟨m, hm, rfl⟩
    exact Option.isSome_iff_ne_none.2 (hnamed m hm)
  have hnodup : (messages.filterMap Phase1bMessage.sender).Nodup :=
    List.Nodup.of_map some (hmap ▸ honce)
  calc (promiseSenders messages).card
      = (messages.filterMap Phase1bMessage.sender).length := List.toFinset_card_of_nodup hnodup
    _ = ((messages.filterMap Phase1bMessage.sender).map some).length := (List.length_map _).symm
    _ = messages.length := by rw [hmap, List.length_map]

omit [Xxh64] in
/-- One more voice for the current rank. -/
theorem OneVoiceEach.append {p : Paxos} (h : OneVoiceEach p) {m : Phase1bMessage}
    (hrank : m.rnd = some p.crnd) (hnamed : m.sender ≠ none)
    (hnew : ∀ m' ∈ p.phase1bMessages, m'.sender ≠ m.sender) :
    OneVoiceEach { p with phase1bMessages := p.phase1bMessages ++ [m] } := by
  refine ⟨?_, ?_, ?_⟩
  · intro m' hm'
    rcases List.mem_append.1 hm' with hold | hlast
    · exact h.current m' hold
    · rwa [List.mem_singleton.1 hlast]
  · intro m' hm'
    rcases List.mem_append.1 hm' with hold | hlast
    · exact h.named m' hold
    · rwa [List.mem_singleton.1 hlast]
  · simp only [List.map_append, List.map_cons, List.map_nil, List.nodup_append, h.once,
      List.nodup_singleton, true_and, List.mem_map, List.mem_singleton]
    rintro _ ⟨m', hm', rfl⟩ _ rfl
    exact hnew m' hm'

omit [Xxh64] in
/-- With one voice each, a count that passes half of the acceptors is a quorum of them. -/
theorem OneVoiceEach.realQuorum {p : Paxos} (h : OneVoiceEach p) {m : Phase1bMessage}
    (hends : EndsCollection p m) (hnamed : m.sender ≠ none)
    (hnew : ∀ m' ∈ p.phase1bMessages, m'.sender ≠ m.sender) : RealQuorum p m := by
  rcases hends with ⟨_, hrank, _, hcount, _⟩
  have hall := h.append hrank hnamed hnew
  refine ⟨h.current, ?_⟩
  rw [card_promiseSenders hall.named hall.once]
  exact hcount

omit [Xxh64] in
/-- What is collected for the current rank was handled for it. -/
theorem Collected.mem_handledForRank (h : Collected n configurationId r)
    (hvoices : OneVoiceEach r.self) {m : Phase1bMessage} (hm : m ∈ r.self.phase1bMessages) :
    m ∈ handledForRank r := by
  refine List.mem_filter.2 ⟨h.handled.subset hm, ?_⟩
  simp [h.own m hm, h.configuration, hvoices.current m hm]

/-- A new rank is entered with an empty list, or the rank stays. -/
theorem Collected.oneVoice_start (h : Collected n configurationId r) {round : Int32}
    (hvoices : OneVoiceEach r.self) (honce : handledForRank r ≠ [] →
      round < r.self.crnd.round ∨ (⟨round, stableNodeIndex r.self.myAddr⟩ : Rank) = r.self.crnd) :
    OneVoiceEach (r.self.startPhase1a round).1 := by
  unfold Paxos.startPhase1a
  split
  · exact hvoices
  · rename_i hguard
    by_cases hnone : handledForRank r = []
    · have hempty : r.self.phase1bMessages = [] := by
        refine List.eq_nil_iff_forall_not_mem.2 fun m hm => ?_
        simpa [hnone] using h.mem_handledForRank hvoices hm
      exact ⟨by simp [hempty], by simp [hempty], by simp [hempty]⟩
    · rcases honce hnone with hlt | hsame
      · exact absurd hlt hguard
      · exact ⟨by simpa [hsame] using hvoices.current, hvoices.named, hvoices.once⟩

/-- `start_phase1a` leaves the value alone. -/
theorem startPhase1a_cval (p : Paxos) (round : Int32) : (p.startPhase1a round).1.cval = p.cval := by
  unfold Paxos.startPhase1a
  split
  · rfl
  · rfl

/-- A promise that leaves the value open found it open, and was a new voice or changed nothing. -/
theorem handlePhase1b_open {p : Paxos} {m : Phase1bMessage} (hopen : (p.handlePhase1b m).1.cval = []) :
    p.cval = [] ∧ ((p.handlePhase1b m).1 = p ∨
      m.configurationId = p.configurationId ∧ m.rnd = some p.crnd ∧
        (p.handlePhase1b m).1 = { p with phase1bMessages := p.phase1bMessages ++ [m] }) := by
  by_cases hconfig : m.configurationId = p.configurationId
  · have hmove := p.handlePhase1b_move m
    generalize (p.handlePhase1b m).1 = p' at hmove hopen ⊢
    generalize (p.handlePhase1b m).2 = outs at hmove
    cases hmove with
    | idle => exact ⟨hopen, Or.inl rfl⟩
    | collect _ hrank => exact ⟨hopen, Or.inr ⟨hconfig, hrank, rfl⟩⟩
    | propose _ chosen _ _ _ hne => exact absurd hopen hne
  · rw [handlePhase1b_of_ne hconfig] at hopen ⊢
    exact ⟨hopen, Or.inl rfl⟩

/-- Runs whose calls meet `PromisesOnce` end each collection over a real quorum. -/
theorem collectsQuorum_of_promisesOnce
    (h : System.Reaches (coordinatorSystem addr configurationId n) PromisesOnce r) :
    System.Reaches (coordinatorSystem addr configurationId n) CollectsQuorum r := by
  -- While no value is chosen, the list holds one voice each; afterwards it no longer matters.
  refine (h.tighten (I := fun r => r.self.cval = [] → OneVoiceEach r.self) ?_ ?_).1
  · rintro r rfl _
    exact ⟨by simp [Paxos.new], by simp [Paxos.new], by simp [Paxos.new]⟩
  · intro r c r' hr hI honce hstep
    cases hstep
    have hcollected := collected hr
    cases c with
    | startPhase1a round =>
        refine ⟨trivial, fun hopen => ?_⟩
        have hbefore : r.self.cval = [] := (startPhase1a_cval r.self round).symm.trans hopen
        exact hcollected.oneVoice_start (hI hbefore) (honce hbefore)
    | handlePhase1b m =>
        have hfresh (hopen : r.self.cval = []) (hconfig : m.configurationId = r.self.configurationId)
            (hrank : m.rnd = some r.self.crnd) :
            m.sender ≠ none ∧ ∀ m' ∈ r.self.phase1bMessages, m'.sender ≠ m.sender := by
          rcases honce hopen hconfig hrank with ⟨hnamed, hnew⟩
          exact ⟨hnamed, fun m' hm' => hnew m' (hcollected.mem_handledForRank (hI hopen) hm')⟩
        constructor
        · intro hends
          have hvoices := hI hends.2.2.1
          rcases hfresh hends.2.2.1 hends.1 hends.2.1 with ⟨hnamed, hnew⟩
          exact hvoices.realQuorum hends hnamed hnew
        · intro hopen
          change OneVoiceEach (r.self.handlePhase1b m).1
          rcases handlePhase1b_open hopen with ⟨hbefore, hsame | ⟨hconfig, hrank, hadded⟩⟩
          · rw [hsame]
            exact hI hbefore
          · rcases hfresh hbefore hconfig hrank with ⟨hnamed, hnew⟩
            rw [hadded]
            exact (hI hbefore).append hrank hnamed hnew

/-- Every proposal rests on a quorum, in runs whose calls meet `PromisesOnce`. -/
theorem phase2a_restsOnQuorum
    (h : System.Reaches (coordinatorSystem addr configurationId n) PromisesOnce r) :
    ProposalsBacked n configurationId r.history :=
  proposals_backed (collectsQuorum_of_promisesOnce h)

end Runs

/-! ## Three acceptors -/

section Sample

attribute [local instance] xxh64Reference

def leader : Endpoint := ⟨[97], 1⟩

def firstAcceptor : Endpoint := ⟨[98], 2⟩

def secondAcceptor : Endpoint := ⟨[99], 3⟩

def leaderSystem : System CoordinatorRun CoordinatorCall :=
  coordinatorSystem leader 7 3

def leaderStart : CoordinatorRun :=
  ⟨Paxos.new leader 7 3, []⟩

/-- The promise of an acceptor that voted for the leader in the fast round. -/
def leaderPromise (round : Int32) (sender : Endpoint) : Phase1bMessage where
  configurationId := 7
  rnd := some ⟨round, stableNodeIndex leader⟩
  sender := some sender
  vrnd := some ⟨1, 1⟩
  vval := [leader]

/-- The leader of round 2 with the promise of one acceptor. -/
def leaderAfter : Paxos :=
  (((Paxos.new leader 7 3).startPhase1a 2).1.handlePhase1b (leaderPromise 2 firstAcceptor)).1

def twoAcceptors : List CoordinatorCall :=
  [.startPhase1a 2, .handlePhase1b (leaderPromise 2 firstAcceptor),
    .handlePhase1b (leaderPromise 2 secondAcceptor)]

def sameAcceptorTwice : List CoordinatorCall :=
  [.startPhase1a 2, .handlePhase1b (leaderPromise 2 firstAcceptor),
    .handlePhase1b (leaderPromise 2 firstAcceptor)]

theorem twoAcceptors_backed :
    ∃ r, leaderSystem.execWhile PromisesOnce leaderStart twoAcceptors = some r ∧
      ProposalsBacked 3 7 r.history := by
  have hruns : (leaderSystem.execWhile PromisesOnce leaderStart twoAcceptors).isSome := by
    decide +kernel
  rcases Option.isSome_iff_exists.1 hruns with ⟨r, hrun⟩
  have hstart : System.Reaches leaderSystem PromisesOnce leaderStart := .start rfl
  exact ⟨r, hrun, phase2a_restsOnQuorum (hstart.execWhile hrun)⟩

/-- Two copies of one promise pass for a majority of three. -/
theorem sameAcceptorTwice_unbacked :
    ∃ r, leaderSystem.exec leaderStart sameAcceptorTwice = some r ∧
      ¬ ProposalsBacked 3 7 r.history := by
  refine ⟨_, rfl, fun hbacked => ?_⟩
  have hvalue : Paxos.selectProposalFromMessages
      (leaderAfter.phase1bMessages ++ [leaderPromise 2 firstAcceptor]) leaderAfter.n = [leader] := by
    decide +kernel
  have hproposal : .broadcast ⟨some (.phase2aMessage (leaderAfter.proposalMessage [leader]))⟩ ∈
      (leaderAfter.handlePhase1b (leaderPromise 2 firstAcceptor)).2 := by
    rw [handlePhase1b_broadcasts (by decide +kernel) (by simp [hvalue]), hvalue]
    exact List.mem_singleton_self _
  rcases hbacked [_, _] _ [] rfl _ hproposal with ⟨r, hr, hrests⟩
  cases hr
  exact absurd hrests.senders (by decide +kernel)

end Sample

end Rapid
